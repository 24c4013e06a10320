import Mathlib
import DocMatch.Proofs.Document

/-!
Objects without one of their fields. What is left is written anew, its keys escaped afresh and its
values as they were, so it reads as the same fields without that one, and the bytes follow from
those fields alone. Main statement: `withoutField_removes`.
-/

namespace DocMatch.Document

open Json

theorem exists_fields_of_members {data : Bytes} {members : List (String × Bytes)}
    (h : read (readObject readSpan) data = .ok members) : ∃ fs, fields data = .ok fs := by
  obtain ⟨r, hr⟩ := readDocument_ok h
  have hfield : ∀ m ∈ members, ∃ f, fieldOfMember m = .ok f := by
    rintro ⟨key, raw⟩ hm
    obtain ⟨n, hn, rfl⟩ := readObject_isValue hr _ hm
    exact ⟨(key, n), map_eq_ok_iff.2 ⟨n, node_of_isValue hn, rfl⟩⟩
  obtain ⟨l, hl⟩ := exists_mapM_eq_ok hfield
  exact ⟨.ofList l, bind_eq_ok_iff.2 ⟨members, h, bind_eq_ok_iff.2 ⟨l, hl, rfl⟩⟩⟩

theorem fields_eq_error_iff {data : Bytes} {error : MatchError} :
    fields data = .error error ↔ read (readObject readSpan) data = .error error := by
  constructor
  · intro h
    rcases bind_eq_error_iff.1 h with h | ⟨members, hmembers, -⟩
    · exact h
    · obtain ⟨fs, hfs⟩ := exists_fields_of_members hmembers
      cases h.symm.trans hfs
  · exact fun h => bind_eq_error_iff.2 (.inl h)

theorem withoutField_eq (data : Bytes) (key : String) :
    withoutField data key = (fields data).map fun fs => ofFields (fs.erase key) := by
  rw [withoutField]
  cases fields data <;> rfl

theorem withoutField_of_fields {data : Bytes} {fs : Fields} (h : fields data = .ok fs)
    (key : String) : withoutField data key = .ok (ofFields (fs.erase key)) := by
  rw [withoutField_eq, h]
  rfl

theorem fields_ofFields_erase {data : Bytes} {fs : Fields} (h : fields data = .ok fs)
    (key : String) : fields (ofFields (fs.erase key)) = .ok (fs.erase key) :=
  fields_ofFields fun f hf => fields_sound h f (mem_erase hf)

theorem withoutField_withoutField {data : Bytes} {fs : Fields} (h : fields data = .ok fs)
    (key key' : String) :
    withoutField data key >>= (withoutField · key') =
      .ok (ofFields ((fs.erase key).erase key')) := by
  rw [withoutField_of_fields h]
  exact withoutField_of_fields (fields_ofFields_erase h key) key'

theorem withoutField_comm (data : Bytes) (key key' : String) :
    withoutField data key >>= (withoutField · key') =
      withoutField data key' >>= (withoutField · key) := by
  cases h : fields data with
  | error error =>
    rw [withoutField_eq, withoutField_eq, h]
    rfl
  | ok fs =>
    rw [withoutField_withoutField h, withoutField_withoutField h, Fields.erase_comm]

/-- Taking a field out fails as reading the object does. Otherwise what is left holds the other
fields, in order and byte for byte, and follows from them alone: it is the same for every object
that leaves these fields, taking the field out again changes nothing, and fields may be taken out
in any order. -/
theorem withoutField_removes (data : Bytes) (key : String) :
    (∀ error, withoutField data key = .error error ↔ fields data = .error error) ∧
    (∀ error, fields data = .error error ↔ read (readObject readSpan) data = .error error) ∧
    (∀ fs, fields data = .ok fs → ∃ out, withoutField data key = .ok out ∧
      (∃ left, fields out = .ok left ∧ left.toList = fs.toList.filter (·.1 ≠ key)) ∧
      (∀ other key' gs, fields other = .ok gs →
        gs.toList.filter (·.1 ≠ key') = fs.toList.filter (·.1 ≠ key) →
        withoutField other key' = .ok out) ∧
      withoutField out key = .ok out) ∧
    ∀ key', withoutField data key >>= (withoutField · key') =
      withoutField data key' >>= (withoutField · key) := by
  refine ⟨fun error => ?_, fun error => fields_eq_error_iff, fun fs hfs => ?_,
    withoutField_comm data key⟩
  · rw [withoutField_eq, map_eq_error_iff]
  · have hleft := fields_ofFields_erase hfs key
    refine ⟨_, withoutField_of_fields hfs key, ⟨_, hleft, fs.toList_erase key⟩, ?_, ?_⟩
    · intro other key' gs hgs heq
      have herase : gs.erase key' = fs.erase key := by
        rw [← Fields.toList_erase, ← Fields.toList_erase] at heq
        exact Fields.ext fun k => by rw [Fields.get?, heq, Fields.get?]
      rw [withoutField_of_fields hgs, herase]
    · rw [withoutField_of_fields hleft, Fields.erase_erase_self]

/-- A key is written with the escape that it has one for, however it was written before. -/
example : withoutField (Bytes.ofString "\x7b \"\\u000a\" : [1, 2] , \"k\" : 0 \x7d") "k" =
    .ok (Bytes.ofString "\x7b\"\\n\":[1, 2]\x7d") := by cbv

end DocMatch.Document
