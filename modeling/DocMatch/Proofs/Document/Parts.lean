import Mathlib
import DocMatch.Proofs.Document

/-!
Parts of a document by themselves. What is taken out of a document is a run of its bytes that reads
as the same node again and as what its kind says; and a document put together from such runs, with
any blanks between them, is taken apart into them. Main statement: `parts_standAlone`.
-/

namespace DocMatch.Document

open Json

def Trimmed (s : Bytes) : Prop :=
  (∀ b ∈ s.head?, Bytes.isSpace b = false) ∧ ∀ b ∈ s.getLast?, Bytes.isSpace b = false

theorem trimmed_of_forall {s : Bytes} (h : ∀ b ∈ s, Bytes.isSpace b = false) : Trimmed s :=
  ⟨fun b hb => h b (List.mem_of_mem_head? hb), fun b hb => h b (List.mem_of_getLast? hb)⟩

theorem trimmed_between {opening closing : UInt8} (ho : Bytes.isSpace opening = false)
    (hc : Bytes.isSpace closing = false) (s : Bytes) : Trimmed (opening :: (s ++ [closing])) := by
  refine ⟨by simpa using ho, ?_⟩
  rw [← List.cons_append, List.getLast?_concat]
  simpa using hc

/-- The node by itself, whatever it was taken out of: its bytes read as the same node, and as a
value of its kind. Of a string and of the names in an object that asks for surrogates in pairs. -/
structure StandsAlone (n : Node) : Prop where
  trimmed : Trimmed n.raw
  root : root n.raw = .ok n
  number : n.kind = .number → ∃ x, n.numberValue = .ok x
  boolean : n.kind = .boolean → ∃ b, n.booleanValue = .ok b
  elements : n.kind = .array → ∃ nodes, elements n.raw = .ok nodes
  text : n.kind = .string → IsPaired n.raw → ∃ text, n.stringValue = .ok text
  fields : n.kind = .object → IsPaired n.raw → ∃ fs, fields n.raw = .ok fs
  checked : n.kind = .object → IsPaired n.raw → checkObject n.raw = .ok ()

end DocMatch.Document

namespace DocMatch.Node.Written

open Document Json

variable {κ : Type} {Lit : Bytes → κ → Prop} {n : Node}

theorem trimmed (h : n.Written Lit) : Trimmed n.raw := by
  cases h with
  | null => exact trimmed_of_forall (by decide +kernel)
  | boolean hx => rcases hx with rfl | rfl <;> exact trimmed_of_forall (by decide +kernel)
  | number hx =>
    exact trimmed_of_forall (forall_of_isNumber (fun _ hb => (isDigit_cases hb).1)
      (by decide +kernel) hx)
  | string _ => exact trimmed_between (by decide) (by decide) _
  | array h _ => cases h <;> exact trimmed_between (by decide) (by decide) _
  | object h _ => cases h <;> exact trimmed_between (by decide) (by decide) _

theorem standsAlone (h : n.IsValue) : StandsAlone n where
  trimmed := h.trimmed
  root := root_complete_self h
  number hkind := h.exists_numberValue hkind
  boolean hkind := h.exists_booleanValue hkind
  elements hkind := h.exists_elements_of_isValue hkind
  text hkind hp := (h.spelled hp).exists_stringValue hkind
  fields hkind hp := by
    obtain ⟨fs, hfs, -⟩ := (h.spelled hp).exists_fields hkind
    exact ⟨fs, hfs⟩
  checked hkind hp := by
    obtain ⟨-, -, hchecked, -⟩ := (h.spelled hp).exists_fields hkind
    exact hchecked

end DocMatch.Node.Written

namespace DocMatch.Document

open Json

theorem isValue_of_root {n : Node} (h : root n.raw = .ok n) : n.IsValue := (root_sound h).1

/-- What a document is taken apart into are runs of its bytes that stand for themselves. A list of
such runs in brackets is taken apart into them in order, and of members in braces the last one of
each name counts, whatever blanks stand between them and however the names are spelled. -/
theorem parts_standAlone :
    (∀ data n, root data = .ok n → n.raw <:+: data ∧ StandsAlone n) ∧
    (∀ data fs key n, fields data = .ok fs → fs.get? key = some n →
      Within n.raw data ∧ StandsAlone n) ∧
    (∀ data nodes, elements data = .ok nodes → ∀ n ∈ nodes, Within n.raw data ∧ StandsAlone n) ∧
    (∀ nodes v y w, (∀ n ∈ nodes, root n.raw = .ok n) → AllBlank v →
      Enclosed (byte '[') (byte ']') Element y nodes → AllBlank w →
      elements (v ++ (y ++ w)) = .ok nodes) ∧
    ∀ members v y w, (∀ m ∈ members, root m.2.raw = .ok m.2) → AllBlank v →
      Enclosed (byte '{') (byte '}') (Member Spells) y members → AllBlank w →
      ∃ fs, fields (v ++ (y ++ w)) = .ok fs ∧ ∀ key n, fs.get? key = some n ↔
        ∃ before after, members = before ++ (key, n) :: after ∧ ∀ m, (key, m) ∉ after := by
  refine ⟨?_, ?_, ?_, ?_, ?_⟩
  · intro data n h
    obtain ⟨hn, v, w, -, -, hdata⟩ := root_sound h
    exact ⟨⟨v, w, by rw [hdata, List.append_assoc]⟩, hn.standsAlone⟩
  · intro data fs key n h hn
    exact ⟨fields_get? h hn, (isValue_of_get? h hn).standsAlone⟩
  · intro data nodes h n hn
    exact ⟨elements_mem h n hn, (elements_sound h n hn).standsAlone⟩
  · intro nodes v y w hroots hv h hw
    exact elements_between hv hw h fun n hn => isValue_of_root (hroots n hn)
  · intro members v y w hroots hv h hw
    refine ⟨_, fields_between h hv hw fun m hm => isValue_of_root (hroots m hm), fun key n => ?_⟩
    exact Fields.get?_ofList_eq_some_iff_last

/-- The same name twice, the second time with an escape. -/
example :
    (fields (Bytes.ofString " \x7b\"a\":1, \"\\u0061\" : [2 ]\x7d")).map (·.get? "a") =
      .ok (some ⟨.array, Bytes.ofString "[2 ]"⟩) := by cbv

end DocMatch.Document
