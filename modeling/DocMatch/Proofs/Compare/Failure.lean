import DocMatch.Proofs.Compare.Step

/-!
Which errors end a comparison. What a document holds can always be told and read again, at any
depth, so an error of reading comes from a document as a whole, or from fields wanted of an expected
node that has none. Main statement: `documents_failed`.
-/

namespace DocMatch

open Json

namespace Document

def HoldsValue (data : Bytes) : Prop :=
  ∃ v n w, AllBlank v ∧ Node.IsValue n ∧ AllBlank w ∧ data = v ++ (n.raw ++ w)

/-- The bytes of the node can be read for all that a node of its kind is read for. -/
structure Rereads (n : Node) : Prop where
  root : Document.root n.raw = .ok n
  checked : n.kind = .object → checkObject n.raw = .ok ()
  fields : n.kind = .object → ∃ fs, Document.fields n.raw = .ok fs
  stripped : n.kind = .object → ∀ key, ∃ raw, withoutField n.raw key = .ok raw
  elements : n.kind = .array → ∃ nodes, Document.elements n.raw = .ok nodes
  text : n.kind = .string → ∃ text, n.stringValue = .ok text
  number : n.kind = .number → ∃ x, n.numberValue = .ok x
  boolean : n.kind = .boolean → ∃ b, n.booleanValue = .ok b

theorem rereads_of_isSpelled {n : Node} (h : n.IsSpelled) : Rereads n where
  root := root_complete_self h.isValue
  checked hkind := by
    obtain ⟨fs, -, hcheck, -⟩ := h.exists_fields hkind
    exact hcheck
  fields hkind := by
    obtain ⟨fs, hfs, -⟩ := h.exists_fields hkind
    exact ⟨fs, hfs⟩
  stripped hkind key := by
    obtain ⟨fs, hfs, -⟩ := h.exists_fields hkind
    refine ⟨ofFields (fs.erase key), ?_⟩
    rw [withoutField, hfs]
    rfl
  elements hkind := by
    obtain ⟨nodes, hnodes, -⟩ := h.exists_elements hkind
    exact ⟨nodes, hnodes⟩
  text hkind := h.exists_stringValue hkind
  number hkind := h.exists_numberValue hkind
  boolean hkind := h.exists_booleanValue hkind

theorem raises_root (data : Bytes) : Raises (·.isUnreachable = false) (root data) := by
  refine (raises_read readSpan data).bind fun raw hraw => ?_
  obtain ⟨v, r, -, hr, -, -⟩ := read_sound hraw
  obtain ⟨n, hn, rfl⟩ := exists_isValue hr
  exact raises_of_eq_ok ⟨n, node_of_isValue hn⟩

theorem not_holdsValue_of_root {data : Bytes} {error : MatchError} (h : root data = .error error) :
    ¬ HoldsValue data := by
  rintro ⟨v, n, w, hv, hn, hw, rfl⟩
  rw [root_complete hn hv hw] at h
  cases h

end Document

namespace Compare

open Document

theorem failed_cases {Q : Node → Prop} {P : MatchError → Prop} (hq : Readable Q P)
    {config : Config} {path : String} {e a : Node} (he : Q e) (ha : Q a) {d : Diagnostic}
    {error : MatchError} (h : (nodes config path e a).value = .failed d error) :
    P error ∨ error.isUnreachable = false ∧ ∃ rest e' a',
      Reaches e a rest e' a' ∧ d.path = path ++ rest ∧ a'.kind = .object ∧ e'.kind ≠ .object := by
  -- by induction on the length of the actual node, which every step makes shorter
  induction hlen : a.raw.length using Nat.strongRecOn generalizing path e a with
  | ind k ih =>
    have horigin : Origin config P path e a (nodes config path e a).value := origin hq he ha
    generalize (nodes config path e a).value = v at h horigin
    cases horigin with
    | matched => cases h
    | mismatch _ => cases h
    | @failed d' error' hd herror =>
      obtain ⟨rfl, rfl⟩ : d' = d ∧ error' = error := Verdict.failed.inj h
      rcases herror with herror | ⟨herror, hakind, hekind⟩
      · exact .inl herror
      · have hpath : d'.path = path ++ "" := by rw [hd.path_eq, String.append_empty]
        exact .inr ⟨herror, "", e, a, .here, hpath, hakind, hekind⟩
    | missing _ _ _ _ _ _ hraises =>
      unfold missing at h
      split at h
      next error' herror =>
        obtain rfl : error' = error := (Verdict.failed.inj h).2
        exact .inl (hraises _ herror)
      · cases h
      · cases h
    | unidentified => cases h
    | @below e' a' segment hstep =>
      have hlt : a'.raw.length < k := hlen ▸ hstep.length_lt
      obtain ⟨he', ha'⟩ := hstep.readable hq he ha
      rcases ih _ hlt he' ha' h rfl with herror | ⟨herror, rest, e₂, a₂, hreach, hpath, hkinds⟩
      · exact .inl herror
      · refine .inr ⟨herror, segment ++ rest, e₂, a₂, .step hstep hreach, ?_, hkinds⟩
        rw [hpath, String.append_assoc]

theorem objectRoot_error {data : Bytes} {error : MatchError} (h : objectRoot data = .error error) :
    error.isUnreachable = false ∧
      (¬ HoldsValue data ∨ ∃ n, root data = .ok n ∧ n.kind ≠ .object) := by
  cases hroot : root data with
  | error error' =>
    obtain rfl : error' = error := by simpa [objectRoot, hroot, bind, Except.bind] using h
    exact ⟨raises_root data _ hroot, .inl (not_holdsValue_of_root hroot)⟩
  | ok n =>
    rw [objectRoot_of_root hroot] at h
    split at h
    · cases h
    next hkind =>
      obtain rfl := Except.error.inj h
      exact ⟨rfl, .inr ⟨n, rfl, hkind⟩⟩

theorem documents_cases {config : Config} {expected actual : Bytes} {d : Diagnostic}
    {error : MatchError} (h : (documents config expected actual).value = .failed d error) :
    (d.path = "" ∧ ∃ data, (data = expected ∨ data = actual) ∧ objectRoot data = .error error) ∨
      ∃ e a, objectRoot expected = .ok e ∧ objectRoot actual = .ok a ∧
        (nodes config "" e a).value = .failed d error := by
  cases he : objectRoot expected with
  | error error' =>
    rw [value_documents_of_expected he] at h
    obtain ⟨rfl, rfl⟩ := Verdict.failed.inj h
    exact .inl ⟨rfl, expected, .inl rfl, he⟩
  | ok e =>
    cases ha : objectRoot actual with
    | error error' =>
      rw [value_documents_of_actual he ha] at h
      obtain ⟨rfl, rfl⟩ := Verdict.failed.inj h
      exact .inl ⟨rfl, actual, .inr rfl, ha⟩
    | ok a =>
      rw [documents_of_objectRoot he ha] at h
      exact .inr ⟨e, a, rfl, rfl, h⟩

/-- No comparison ends in a number or a boolean that cannot be read, or in a value of no kind.
Where no document holds a surrogate without its other half, all parts of the documents can be read
again, and only a document as a whole can be invalid, or an expected node that is no object but
meets one. -/
theorem documents_failed (config : Config) (expected actual : Bytes) :
    (∀ d error, (documents config expected actual).value = .failed d error →
      (∀ input, error ≠ .invalidNumber input) ∧ (∀ input, error ≠ .invalidBoolean input) ∧
        ∀ raw, error ≠ .invalidDocument (.undetermined raw)) ∧
    (IsPaired expected → IsPaired actual →
      (∀ d fault, (documents config expected actual).value = .failed d (.invalidDocument fault) →
        (d.path = "" ∧ ∃ data, (data = expected ∨ data = actual) ∧
          (¬ HoldsValue data ∨ ∃ n, root data = .ok n ∧ n.kind ≠ .object)) ∨
        ∃ e a e' a', root expected = .ok e ∧ root actual = .ok a ∧
          Reaches e a d.path e' a' ∧ a'.kind = .object ∧ e'.kind ≠ .object) ∧
      ∀ n, Part expected n ∨ Part actual n → Rereads n) := by
  refine ⟨fun d error h => ?_, fun hexpected hactual => ⟨fun d fault h => ?_, fun n hn => ?_⟩⟩
  · have hreachable : error.isUnreachable = false := by
      rcases documents_cases h with ⟨-, data, -, hdata⟩ | ⟨e, a, he, ha, hv⟩
      · exact (objectRoot_error hdata).1
      · have hevalue := (root_sound (objectRoot_sound he).1).1
        have havalue := (root_sound (objectRoot_sound ha).1).1
        exact (failed_cases readable_isValue hevalue havalue hv).elim id And.left
    refine ⟨?_, ?_, ?_⟩ <;> rintro _ rfl <;> cases hreachable
  · rcases documents_cases h with ⟨hpath, data, hdata, herror⟩ | ⟨e, a, he, ha, hv⟩
    · exact .inl ⟨hpath, data, hdata, (objectRoot_error herror).2⟩
    · have heroot := (objectRoot_sound he).1
      have haroot := (objectRoot_sound ha).1
      have hespelled := root_spelled hexpected heroot
      have haspelled := root_spelled hactual haroot
      rcases failed_cases readable_isSpelled hespelled haspelled hv with
        herror | ⟨-, rest, e', a', hreach, hpath, hkinds⟩
      · cases herror
      · rw [String.empty_append] at hpath
        exact .inr ⟨e, a, e', a', heroot, haroot, hpath ▸ hreach, hkinds⟩
  · rcases hn with hn | hn
    · exact rereads_of_isSpelled (hn.spelled hexpected)
    · exact rereads_of_isSpelled (hn.spelled hactual)

end Compare

end DocMatch
