import Mathlib
import DocMatch.Correlation.Multiset

/-!
What the table of counts holds. Of each node it holds how much more often the node is expected than
met, and it holds one entry for each node that is either. Main statement: `sameMultiset_iff_perm`.
-/

namespace DocMatch.Correlation

namespace Tally

def held (t : Tally) (n : Node) : Int := (t.lookup n).getD 0

def keys (t : Tally) : List Node := t.map Prod.fst

theorem held_cons (m : Node) (count : Int) (t : Tally) (n : Node) :
    held ((m, count) :: t) n = if n = m then count else t.held n := by
  unfold held
  rw [List.lookup_cons]
  by_cases h : n = m
  · rw [if_pos h, beq_iff_eq.2 h]
    rfl
  · rw [if_neg h, beq_eq_false_iff_ne.2 h]

theorem held_add (amount : Int) (t : Tally) (n m : Node) :
    (t.add amount n).held m = t.held m + if m = n then amount else 0 := by
  induction t with
  | nil => rw [add, held_cons, held, List.lookup_nil, Option.getD_none, zero_add]
  | cons entry rest ih =>
    obtain ⟨key, count⟩ := entry
    rw [add]
    by_cases hkey : key = n
    · rw [if_pos hkey, held_cons, held_cons, hkey]
      split
      · rfl
      · rw [add_zero]
    · rw [if_neg hkey, held_cons, held_cons, ih]
      by_cases hm : m = key
      · rw [if_pos hm, if_pos hm, if_neg (hm ▸ hkey), add_zero]
      · rw [if_neg hm, if_neg hm]

theorem held_foldl (amount : Int) (t : Tally) (nodes : List Node) (m : Node) :
    (nodes.foldl (add amount) t).held m = t.held m + nodes.count m * amount := by
  induction nodes generalizing t with
  | nil => simp
  | cons n nodes ih =>
    rw [List.foldl_cons, ih, held_add, List.count_cons]
    by_cases h : m = n
    · rw [if_pos h, if_pos (beq_iff_eq.2 h.symm)]
      push_cast
      ring
    · rw [if_neg h, if_neg (by simpa using Ne.symm h)]
      simp

theorem mem_keys_add {amount : Int} {t : Tally} {n m : Node} (h : m ∈ (t.add amount n).keys) :
    m = n ∨ m ∈ t.keys := by
  induction t with
  | nil => exact .inl (List.mem_singleton.1 h)
  | cons entry rest ih =>
    obtain ⟨key, count⟩ := entry
    rw [add] at h
    split at h
    · exact .inr h
    · rcases List.mem_cons.1 h with rfl | hrest
      · exact .inr (List.mem_cons_self ..)
      · exact (ih hrest).imp_right (List.mem_cons_of_mem _)

theorem nodup_keys_add {amount : Int} {t : Tally} (n : Node) (h : t.keys.Nodup) :
    (t.add amount n).keys.Nodup := by
  induction t with
  | nil => exact List.nodup_singleton n
  | cons entry rest ih =>
    obtain ⟨key, count⟩ := entry
    obtain ⟨hkey, hrest⟩ := List.nodup_cons.1 h
    rw [add]
    split
    · exact h
    next hne =>
      refine List.nodup_cons.2 ⟨fun hmem => ?_, ih hrest⟩
      exact (mem_keys_add hmem).elim hne hkey

theorem nodup_keys_foldl {amount : Int} {t : Tally} (nodes : List Node) (h : t.keys.Nodup) :
    (nodes.foldl (add amount) t).keys.Nodup := by
  induction nodes generalizing t with
  | nil => exact h
  | cons n nodes ih => exact ih (nodup_keys_add n h)

theorem all_zero_iff {t : Tally} (h : t.keys.Nodup) :
    t.all (·.2 = 0) = true ↔ ∀ n, t.held n = 0 := by
  induction t with
  | nil => exact iff_of_true rfl fun _ => rfl
  | cons entry rest ih =>
    obtain ⟨key, count⟩ := entry
    obtain ⟨hkey, hrest⟩ := List.nodup_cons.1 h
    have hnone : held rest key = 0 := by
      have hlookup : rest.lookup key = none := by
        refine List.lookup_eq_none_iff.2 fun p hp => bne_iff_ne.2 fun heq => hkey ?_
        have hmem : p.1 ∈ keys rest := List.mem_map_of_mem hp
        exact heq ▸ hmem
      rw [held, hlookup, Option.getD_none]
    rw [List.all_cons, Bool.and_eq_true, ih hrest, decide_eq_true_iff]
    constructor
    · rintro ⟨hcount, hall⟩ n
      rw [held_cons, hall]
      split
      · exact hcount
      · rfl
    · intro hall
      refine ⟨by simpa [held_cons] using hall key, fun n => ?_⟩
      by_cases hn : n = key
      · rw [hn, hnone]
      · simpa [held_cons, hn] using hall n

end Tally

/-- The table holds the difference of two counts. -/
theorem held_tally (expected actual : List Node) (n : Node) :
    (tally expected actual).held n = expected.count n - actual.count n := by
  rw [tally, Tally.held_foldl, Tally.held_foldl, Tally.held, List.lookup_nil, Option.getD_none]
  ring

theorem nodup_keys_tally (expected actual : List Node) : (tally expected actual).keys.Nodup :=
  Tally.nodup_keys_foldl actual (Tally.nodup_keys_foldl expected List.nodup_nil)

theorem sameMultiset_iff_perm {expected actual : List Node} :
    sameMultiset expected actual = true ↔ actual.Perm expected := by
  rw [sameMultiset, Bool.and_eq_true, decide_eq_true_iff,
    Tally.all_zero_iff (nodup_keys_tally expected actual), List.perm_iff_count]
  simp only [held_tally, sub_eq_zero, Nat.cast_inj]
  constructor
  · rintro ⟨-, hcounts⟩ n
    exact (hcounts n).symm
  · intro hcounts
    exact ⟨(List.perm_iff_count.2 hcounts).length_eq.symm, fun n => (hcounts n).symm⟩

end DocMatch.Correlation
