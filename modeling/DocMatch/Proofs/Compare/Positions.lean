import Mathlib
import DocMatch.Proofs.Compare.Calls
import DocMatch.Proofs.Compare.Prefix
import DocMatch.Proofs.Correlation.Permutation

/-!
Elements paired by position. The verdict is that of the lowest position that fails, so the order in
which positions are declared has no part in it, and neither has a position beyond the actual
elements. Main statement: `positions_unordered`.
-/

namespace DocMatch.Compare

open Correlation Verdict

/-- The verdict on an array by the pairs at its positions. -/
inductive ByPosition (config : Config) (path : String) (es as : List Node) : Verdict → Prop where
  | matched : (∀ (i : Nat) n a, Stripped es (.index i) n → as[i]? = some a →
        (nodes config (path ++ ("[" ++ toString i ++ "]")) n a).value = .matched) →
      ByPosition config path es as .matched
  | lowest {i : Nat} {n a : Node} : Stripped es (.index i) n → as[i]? = some a →
      (nodes config (path ++ ("[" ++ toString i ++ "]")) n a).value ≠ .matched →
      (∀ j < i, ∀ m b, Stripped es (.index j) m → as[j]? = some b →
        (nodes config (path ++ ("[" ++ toString j ++ "]")) m b).value = .matched) →
      ByPosition config path es as (nodes config (path ++ ("[" ++ toString i ++ "]")) n a).value

section

variable {config : Config} {path : String} {es as : List Node}

theorem byPosition (hkeys : Correlates none es) :
    ByPosition config path es as (arrays config path es as).value := by
  obtain ⟨pairs, hpairs, hindex⟩ := hkeys.exists_positions
  rw [value_arrays_of_keyed hkeys.nonempty hkeys.objects hpairs, keyedLevel_index _ _ hindex]
  rcases first_map_cases pairs (atPosition (fun p e a => (nodes config p e a).value) path as) with
    ⟨hfirst, hall⟩ | ⟨before, k, after, rfl, hbefore, hk, hfirst⟩
  · rw [hfirst]
    refine .matched fun i n a hn ha => ?_
    obtain ⟨k, hk, hi, rfl⟩ := (stripped_iff_of_keyed hpairs).1 hn
    exact (atPosition_of_some hi ha).symm.trans (hall k hk)
  · obtain ⟨i, hi⟩ := hindex k (by simp)
    rw [hfirst]
    cases ha : as[i]? with
    | none => exact absurd (atPosition_of_none hi ha) hk
    | some a =>
      rw [atPosition_of_some hi ha] at hk ⊢
      have hn : Stripped es (.index i) k.node :=
        (stripped_iff_of_keyed hpairs).2 ⟨k, by simp, hi, rfl⟩
      refine .lowest hn ha hk fun j hj m b hm hb => ?_
      obtain ⟨k', hk', hj', rfl⟩ := (stripped_iff_of_keyed hpairs).1 hm
      refine (atPosition_of_some hj' hb).symm.trans (hbefore k' ?_)
      -- Neither `k` itself nor what comes after it has a lower position.
      have hascending := (List.pairwise_append.1 (pairwise_keyed hpairs hindex)).2.1
      rcases List.mem_append.1 hk' with hmem | hmem
      · exact hmem
      · have hle : k.key.rank ≤ k'.key.rank := by
          rcases List.mem_cons.1 hmem with rfl | hmem
          · exact Nat.le_refl _
          · exact Nat.le_of_lt ((List.pairwise_cons.1 hascending).1 k' hmem)
        rw [hi, hj'] at hle
        exact absurd hj (Nat.not_lt.2 hle)

theorem ByPosition.unique {es' : List Node} {v v' : Verdict} {pairs : List Keyed}
    (hpairs : keyed es = .ok pairs)
    (hsame : ∀ i < as.length, ∀ n, Stripped es' (.index i) n ↔ Stripped es (.index i) n)
    (h : ByPosition config path es as v) (h' : ByPosition config path es' as v') : v' = v := by
  have hrange {i : Nat} {a : Node} (ha : as[i]? = some a) : i < as.length :=
    (List.getElem?_eq_some_iff.1 ha).1
  cases h with
  | matched hall =>
    cases h' with
    | matched _ => rfl
    | lowest hn ha hne _ => exact absurd (hall _ _ _ ((hsame _ (hrange ha) _).1 hn) ha) hne
  | @lowest i n a hn ha hne hlower =>
    cases h' with
    | matched hall => exact absurd (hall _ _ _ ((hsame _ (hrange ha) _).2 hn) ha) hne
    | @lowest j m b hm hb hne' hlower' =>
      rcases Nat.lt_trichotomy i j with hij | rfl | hji
      · exact absurd (hlower' i hij n a ((hsame i (hrange ha) n).2 hn) ha) hne
      · obtain rfl := Option.some.inj (ha.symm.trans hb)
        rw [Stripped.unique hpairs hn ((hsame i (hrange ha) m).1 hm)]
      · exact absurd (hlower j hji m b ((hsame j (hrange hb) m).1 hm) hb) hne'

theorem arrays_of_positions (hkeys : Correlates none es) {pairs : List Keyed}
    (hpairs : keyed es = .ok pairs) (hindex : ∀ k ∈ pairs, ∃ i, k.key = .index i) :
    arrays config path es as = Traced.noting (.comparingArrays path es.length as.length)
      (Traced.firstFailure
        (compareAt (fun p e a _ => nodes config p e a : PairComparison as) path) pairs) := by
  have hall : es.all (·.kind = .object) = true := by simpa using hkeys.objects
  rw [arrays, compareArrays, all_isPrimitive_of_objects hkeys.nonempty hkeys.objects, hall, hpairs]
  simp only [compareKeyed_index _ hindex, Bool.not_true, Bool.false_eq_true, if_false]

end

/-- Of the positions within the actual array the lowest that fails decides. So the same comes of the
expected elements in any order, with the same notes on the way, and no verdict depends on what is
expected beyond the actual elements. -/
theorem positions_unordered (config : Config) (path : String) {es : List Node}
    (hkeys : Correlates none es) (as : List Node) :
    ByPosition config path es as (arrays config path es as).value ∧
    (∀ es', es'.Perm es → arrays config path es' as = arrays config path es as) ∧
    ∀ es', Correlates none es' →
      (∀ i < as.length, ∀ n, Stripped es' (.index i) n ↔ Stripped es (.index i) n) →
      (arrays config path es' as).value = (arrays config path es as).value := by
  obtain ⟨pairs, hpairs, hindex⟩ := hkeys.exists_positions
  refine ⟨byPosition hkeys, fun es' hperm => ?_, fun es' hkeys' hsame => ?_⟩
  · rw [arrays_of_positions hkeys hpairs hindex, arrays_of_positions (hkeys.of_perm hperm)
      (keyed_of_perm hpairs hindex hperm) hindex, hperm.length_eq]
  · exact (byPosition hkeys).unique hpairs hsame (byPosition hkeys')

/-- The position that comes first in order is declared last, and the other one is out of range. -/
theorem positions_unordered_two :
    ∃ x y a, Correlates none [x, y] ∧ Correlates none [y] ∧ [y, x].Perm [x, y] ∧
      ByPosition ⟨.zero⟩ "" [x, y] [a] (arrays ⟨.zero⟩ "" [x, y] [a]).value ∧
      arrays ⟨.zero⟩ "" [y, x] [a] = arrays ⟨.zero⟩ "" [x, y] [a] ∧
      (arrays ⟨.zero⟩ "" [y] [a]).value = (arrays ⟨.zero⟩ "" [x, y] [a]).value := by
  have hboth : keyed [⟨.object, Bytes.ofString r#"{"_gst_index":7}"#⟩,
      ⟨.object, Bytes.ofString r#"{"_gst_index":0}"#⟩] =
        .ok [⟨.index 0, Bytes.ofString r#"{}"#⟩,
          ⟨.index 7, Bytes.ofString r#"{}"#⟩] := by cbv
  have hlow : keyed [⟨.object, Bytes.ofString r#"{"_gst_index":0}"#⟩] =
      .ok [⟨.index 0, Bytes.ofString r#"{}"#⟩] := by cbv
  have hkeys : Correlates none [⟨.object, Bytes.ofString r#"{"_gst_index":7}"#⟩,
      ⟨.object, Bytes.ofString r#"{"_gst_index":0}"#⟩] :=
    ⟨by simp, by simp, _, hboth, by simp [Key.name?]⟩
  have hkeys' : Correlates none [⟨.object, Bytes.ofString r#"{"_gst_index":0}"#⟩] :=
    ⟨by simp, by simp, _, hlow, by simp [Key.name?]⟩
  obtain ⟨hdecide, hperm, hrange⟩ := positions_unordered ⟨.zero⟩ "" hkeys
    [⟨.number, Bytes.ofString "3"⟩]
  refine ⟨_, _, _, hkeys, hkeys', .swap .., hdecide, hperm _ (.swap ..), hrange _ hkeys' ?_⟩
  intro i hi n
  rw [stripped_iff_of_keyed hboth, stripped_iff_of_keyed hlow]
  obtain rfl : i = 0 := by simpa using hi
  simp

end DocMatch.Compare
