import DocMatch.Fields
import DocMatch.Proofs.Sequence
import Mathlib.Data.List.Induction
import Mathlib.Data.List.Nodup

/-!
Fields collected from a list of members, and fields taken out. Main statements: `get?_ofList`, the
last member of a name counts, `erase_comm`, and `forall₂_toList`, collections whose fields are
related name by name are related in order.
-/

namespace DocMatch.Fields

theorem ofList_concat (members : List Field) (f : Field) :
    ofList (members ++ [f]) = (ofList members).insert f.1 f.2 := by
  rw [ofList, List.foldl_append]
  rfl

theorem get?_ofList (members : List Field) (key : String) :
    (ofList members).get? key = members.reverse.lookup key := by
  induction members using List.reverseRecOn with
  | nil => rfl
  | append_singleton members f ih =>
    rw [ofList_concat, get?_insert, ih, List.reverse_append, List.reverse_singleton,
      List.singleton_append, lookup_cons_eq]

theorem get?_ofList_eq_some_iff_last {members : List Field} {key : String} {node : Node} :
    (ofList members).get? key = some node ↔
      ∃ before after, members = before ++ (key, node) :: after ∧ ∀ n, (key, n) ∉ after := by
  rw [get?_ofList, lookup_reverse_eq_some_iff]

theorem lookup_eq_some_iff {l : List Field} (hl : (l.map Prod.fst).Nodup) {key : String}
    {node : Node} : l.lookup key = some node ↔ (key, node) ∈ l := by
  refine ⟨mem_of_lookup, fun h => ?_⟩
  induction l with
  | nil => simp at h
  | cons f rest ih =>
    obtain ⟨hf, hrest⟩ := List.nodup_cons.1 hl
    rw [lookup_cons_eq]
    rcases List.mem_cons.1 h with rfl | h
    · exact if_pos rfl
    · have hne : key ≠ f.1 := by
        rintro rfl
        exact hf (List.mem_map.2 ⟨_, h, rfl⟩)
      rw [if_neg hne, ih hrest h]

theorem get?_ofList_eq_some_iff {members : List Field} (hm : (members.map Prod.fst).Nodup)
    {key : String} {node : Node} :
    (ofList members).get? key = some node ↔ (key, node) ∈ members := by
  rw [get?_ofList, lookup_eq_some_iff (by simpa using hm), List.mem_reverse]

theorem nodup_toList (fields : Fields) : (fields.toList.map Prod.fst).Nodup := by
  have hne : fields.toList.Pairwise (·.1 ≠ ·.1) :=
    fields.sorted.imp fun {f g} (hlt : f.1 < g.1) heq => String.lt_irrefl _ (heq ▸ hlt)
  exact List.pairwise_map.2 hne

theorem get?_of_mem {fields : Fields} {f : Field} (h : f ∈ fields.toList) :
    fields.get? f.1 = some f.2 :=
  (lookup_eq_some_iff fields.nodup_toList).2 h

theorem ofList_toList (fields : Fields) : ofList fields.toList = fields := by
  refine ext fun key => Option.ext fun node => ?_
  rw [get?_ofList_eq_some_iff fields.nodup_toList, get?, lookup_eq_some_iff fields.nodup_toList]

theorem erase_erase_self (fields : Fields) (key : String) :
    (fields.erase key).erase key = fields.erase key := by
  refine ext fun k => ?_
  rw [get?_erase, get?_erase]
  split <;> rfl

theorem erase_comm (fields : Fields) (key key' : String) :
    (fields.erase key).erase key' = (fields.erase key').erase key := by
  refine ext fun k => ?_
  simp only [get?_erase]
  split <;> split <;> rfl

theorem toList_erase (fields : Fields) (key : String) :
    (fields.erase key).toList = fields.toList.filter (·.1 ≠ key) :=
  List.filter_congr fun f _ => by rw [decide_not, ← beq_eq_decide, bne]

theorem lookup_head {f : Field} {l : List Field} : (f :: l).lookup f.1 = some f.2 := by
  rw [lookup_cons_eq, if_pos rfl]

theorem lookup_cons_eq_none_of_lt {f : Field} {l : List Field} {key : String} (hkey : key < f.1)
    (hl : ∀ g ∈ l, f.1 < g.1) : (f :: l).lookup key = none := by
  refine lookup_eq_none_of_lt fun g hg => ?_
  rcases List.mem_cons.1 hg with rfl | hg
  · exact hkey
  · exact String.lt_trans hkey (hl g hg)

section

variable {R : Node → Node → Prop} {f f' : Field} {l l' : List Field}

/-- Of two first names neither can come before the other, since it would then be missing on the
other side. -/
theorem rel_head_of_lookup (hl : ∀ g ∈ l, f.1 < g.1) (hl' : ∀ g ∈ l', f'.1 < g.1)
    (h : ∀ key, Option.Rel R ((f :: l).lookup key) ((f' :: l').lookup key)) :
    f.1 = f'.1 ∧ R f.2 f'.2 := by
  have hkey : f.1 = f'.1 := by
    refine String.le_antisymm (String.not_lt.1 fun hlt => ?_) (String.not_lt.1 fun hlt => ?_)
    · have := h f'.1
      rw [lookup_cons_eq_none_of_lt hlt hl, lookup_head] at this
      cases this
    · have := h f.1
      rw [lookup_cons_eq_none_of_lt hlt hl', lookup_head] at this
      cases this
  have hnode := h f.1
  rw [lookup_head, hkey, lookup_head] at hnode
  cases hnode with
  | some hnode => exact ⟨hkey, hnode⟩

/-- Sorted lists whose fields are related name by name are related in order. -/
theorem forall₂_of_lookup (hl : l.Pairwise (·.1 < ·.1)) (hl' : l'.Pairwise (·.1 < ·.1))
    (h : ∀ key, Option.Rel R (l.lookup key) (l'.lookup key)) :
    List.Forall₂ (fun f f' => f.1 = f'.1 ∧ R f.2 f'.2) l l' := by
  induction l generalizing l' with
  | nil =>
    cases l' with
    | nil => exact .nil
    | cons f' l' =>
      have := h f'.1
      rw [lookup_head] at this
      cases this
  | cons f l ih =>
    cases l' with
    | nil =>
      have := h f.1
      rw [lookup_head] at this
      cases this
    | cons f' l' =>
      obtain ⟨hf, hrest⟩ := List.pairwise_cons.1 hl
      obtain ⟨hf', hrest'⟩ := List.pairwise_cons.1 hl'
      have ⟨hkey, hnode⟩ := rel_head_of_lookup hf hf' h
      refine .cons ⟨hkey, hnode⟩ (ih hrest hrest' fun key => ?_)
      by_cases heq : key = f.1
      · subst heq
        rw [lookup_eq_none_of_lt hf, lookup_eq_none_of_lt fun x hx => hkey ▸ hf' x hx]
        exact .none
      · have := h key
        rwa [lookup_cons_eq, lookup_cons_eq, if_neg heq, if_neg (hkey ▸ heq)] at this

end

theorem forall₂_toList {R : Node → Node → Prop} {fields fields' : Fields}
    (h : ∀ key, Option.Rel R (fields.get? key) (fields'.get? key)) :
    List.Forall₂ (fun f f' => f.1 = f'.1 ∧ R f.2 f'.2) fields.toList fields'.toList :=
  forall₂_of_lookup fields.sorted fields'.sorted h

end DocMatch.Fields
