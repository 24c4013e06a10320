import DocMatch.Proofs.Correlation
import DocMatch.Proofs.Formatting

/-!
Elements that differ in formatting alone are paired in the same way. They hold the same keys, or end
in errors of one variant. Main statements: `keyed_corresponds` and `identityTexts_eq`.
-/

namespace DocMatch

/-- Related results, or errors of one variant. -/
inductive Corresponds {α β : Type} (R : α → β → Prop) :
    Except MatchError α → Except MatchError β → Prop where
  | ok {a : α} {b : β} : R a b → Corresponds R (.ok a) (.ok b)
  | error {error error' : MatchError} :
      error.ctorIdx = error'.ctorIdx → Corresponds R (.error error) (.error error')

namespace Corresponds

variable {α β γ δ : Type} {R : α → β → Prop} {S : γ → δ → Prop}
  {x : Except MatchError α} {y : Except MatchError β}

theorem refl (x : Except MatchError α) : Corresponds Eq x x := by
  cases x with
  | error e => exact .error rfl
  | ok a => exact .ok rfl

theorem cases (h : Corresponds R x y) :
    (∃ a b, x = .ok a ∧ y = .ok b ∧ R a b) ∨
      ∃ error error', x = .error error ∧ y = .error error' ∧ error.ctorIdx = error'.ctorIdx := by
  cases h with
  | ok hab => exact .inl ⟨_, _, rfl, rfl, hab⟩
  | error herror => exact .inr ⟨_, _, rfl, rfl, herror⟩

theorem bind {f : α → Except MatchError γ} {g : β → Except MatchError δ} (h : Corresponds R x y)
    (hfg : ∀ a b, R a b → Corresponds S (f a) (g b)) : Corresponds S (x >>= f) (y >>= g) := by
  cases h with
  | ok hab => exact hfg _ _ hab
  | error herror => exact .error herror

theorem map {f : α → γ} {g : β → δ} (h : Corresponds R x y)
    (hfg : ∀ a b, R a b → S (f a) (g b)) : Corresponds S (x.map f) (y.map g) := by
  cases h with
  | ok hab => exact .ok (hfg _ _ hab)
  | error herror => exact .error herror

end Corresponds

namespace Correlation

theorem indexOf_corresponds {s : Spelling} {n n' : Node} (h : Alike s n n') :
    Corresponds Eq (indexOf n) (indexOf n') := by
  by_cases hkind : n.kind = .number
  · have hprimitive : n.isPrimitive = true := by rw [Node.isPrimitive, hkind]; rfl
    rw [h.eq_of_ne_string hprimitive (by simp [hkind])]
    exact .refl _
  · have hkind' : n'.kind ≠ .number := h.kind_eq ▸ hkind
    rw [indexOf, indexOf, if_neg hkind, if_neg hkind']
    exact .error rfl

theorem identityOf_corresponds {s : Spelling} {n n' : Node} (h : Alike s n n') :
    Corresponds Eq (identityOf n) (identityOf n') := by
  by_cases hkind : n.kind = .string
  · have hkind' : n'.kind = .string := h.kind_eq ▸ hkind
    rw [identityOf, identityOf, if_pos hkind, if_pos hkind', h.stringValue_eq]
    refine (Corresponds.refl _).bind fun text text' htext => ?_
    rw [htext]
    split
    · exact .ok rfl
    · exact .error rfl
  · have hkind' : n'.kind ≠ .string := h.kind_eq ▸ hkind
    rw [identityOf, identityOf, if_neg hkind, if_neg hkind']
    exact .error rfl

theorem readKey_corresponds {s : Spelling} {x x' : Node} (h : Alike s x x')
    (hkind : x.kind = .object) (position : Nat) :
    Corresponds Eq (readKey x position) (readKey x' position) := by
  obtain ⟨fs, fs', hfs, hfs', hfields⟩ := h.exists_fields hkind
  simp only [readKey, hfs, hfs', bind, Except.bind]
  rcases rel_cases (hfields indexField) with ⟨hm, hm'⟩ | ⟨m, m', hm, hm', hindex⟩
  · rcases rel_cases (hfields identityField) with ⟨hk, hk'⟩ | ⟨k, k', hk, hk', hidentity⟩
    · rw [hm, hm', hk, hk']
      exact .error rfl
    · rw [hm, hm', hk, hk']
      exact identityOf_corresponds hidentity
  · rcases rel_cases (hfields identityField) with ⟨hk, hk'⟩ | ⟨k, k', hk, hk', hidentity⟩
    · rw [hm, hm', hk, hk']
      exact indexOf_corresponds hindex
    · rw [hm, hm', hk, hk']
      exact .error rfl

def AlikeKeyed (k k' : Keyed) : Prop := k.key = k'.key ∧ Alike .exact k.node k'.node

theorem keyedAfter_corresponds {elements elements' : List Node}
    (h : List.Forall₂ (Alike .exact) elements elements')
    (hkinds : ∀ n ∈ elements, n.kind = .object) (earlier : List Key) :
    Corresponds (List.Forall₂ AlikeKeyed) (keyedAfter earlier elements)
      (keyedAfter earlier elements') := by
  induction h generalizing earlier with
  | nil => exact .ok .nil
  | @cons x x' rest rest' hx _ ih =>
    obtain ⟨hkind, hrest⟩ := List.forall_mem_cons.1 hkinds
    refine (readKey_corresponds hx hkind _).bind fun key key' hkey => ?_
    rw [← hkey]
    refine (Corresponds.refl _).bind fun _ _ _ => ?_
    obtain ⟨raw, raw', hraw, hraw', halike⟩ := hx.exists_withoutField hkind key.field
    rw [hraw, hraw']
    exact (ih hrest _).bind fun more more' hmore => .ok (.cons ⟨rfl, halike⟩ hmore)

theorem forall₂_mergeSort {pairs pairs' : List Keyed} (h : List.Forall₂ AlikeKeyed pairs pairs') :
    List.Forall₂ AlikeKeyed (pairs.mergeSort fun a b => a.key.rank ≤ b.key.rank)
      (pairs'.mergeSort fun a b => a.key.rank ≤ b.key.rank) := by
  obtain ⟨both, rfl, rfl, hboth⟩ := exists_pairs h
  have hleft := List.map_mergeSort (f := Prod.fst) (l := both)
    (r := fun p q => decide (p.1.key.rank ≤ q.1.key.rank))
    (s := fun a b => decide (a.key.rank ≤ b.key.rank)) fun p _ q _ => rfl
  have hright := List.map_mergeSort (f := Prod.snd) (l := both)
    (r := fun p q => decide (p.1.key.rank ≤ q.1.key.rank))
    (s := fun a b => decide (a.key.rank ≤ b.key.rank)) fun p hp q hq => by
      rw [(hboth p hp).1, (hboth q hq).1]
  rw [← hleft, ← hright, List.forall₂_map_left_iff, List.forall₂_map_right_iff]
  exact List.forall₂_same.2 fun p hp => hboth p (List.mem_mergeSort.1 hp)

theorem keyed_corresponds {elements elements' : List Node}
    (h : List.Forall₂ (Alike .exact) elements elements')
    (hkinds : ∀ n ∈ elements, n.kind = .object) :
    Corresponds (List.Forall₂ AlikeKeyed) (keyed elements) (keyed elements') :=
  (keyedAfter_corresponds h hkinds []).map fun _ _ hpairs => forall₂_mergeSort hpairs

/-- The field `name`, if the node is an object and has it, is a scalar. -/
def ScalarAt (name : String) (n : Node) : Prop :=
  ∀ fs f, Document.fields n.raw = .ok fs → fs.get? name = some f → f.isPrimitive = true

theorem identityText_eq {s : Spelling} {name : String} {n n' : Node} (h : Alike s n n')
    (hn : ScalarAt name n) (position : Nat) :
    identityText name position n = identityText name position n' := by
  unfold identityText
  by_cases hkind : n.kind = .object
  · have hkind' : n'.kind = .object := h.kind_eq ▸ hkind
    obtain ⟨fs, fs', hfs, hfs', hfields⟩ := h.exists_fields hkind
    simp only [hkind, hkind', hfs, hfs', ne_eq, not_true_eq_false, if_false]
    rcases rel_cases (hfields name) with ⟨hf, hf'⟩ | ⟨f, f', hf, hf', halike⟩
    · rw [hf, hf']
    · rw [hf, hf']
      exact halike.keyText_eq (hn fs f hfs hf)
  · have hkind' : n'.kind ≠ .object := h.kind_eq ▸ hkind
    rw [if_pos hkind, if_pos hkind']

theorem identityTexts_eq {name : String} {nodes nodes' : List Node}
    (h : List.Forall₂ (Alike .exact) nodes nodes') (hnodes : ∀ n ∈ nodes, ScalarAt name n)
    (position : Nat) : identityTexts name position nodes = identityTexts name position nodes' := by
  induction h generalizing position with
  | nil => rfl
  | @cons n n' rest rest' hn _ ih =>
    obtain ⟨hscalar, hrest⟩ := List.forall_mem_cons.1 hnodes
    rw [identityTexts_cons, identityTexts_cons, identityText_eq hn hscalar, ih hrest]

end Correlation

end DocMatch
