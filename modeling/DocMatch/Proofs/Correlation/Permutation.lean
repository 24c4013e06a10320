import DocMatch.Proofs.Correlation.Restriction
import Mathlib.Data.List.Perm.Basic

/-!
Elements in another order. Keys that are valid stay so. Elements with positions are compared in the
same order again, and where no two nodes have one identity, the first node with an identity is the
same one. Main statements: `stripped_iff_of_keyed`, `keyed_of_perm` and `FirstWith.of_perm`.
-/

namespace DocMatch.Correlation

theorem Coherent.perm {keys keys' : List Key} (h : Coherent keys) (hperm : keys'.Perm keys) :
    Coherent keys' := by
  obtain ⟨name?, hname⟩ := h.name
  exact ⟨⟨name?, fun k hk => hname k (hperm.subset hk)⟩, hperm.nodup_iff.2 h.nodup⟩

section

variable {elements : List Node} {pairs : List Keyed} (h : keyed elements = .ok pairs)

include h

theorem nodup_keyed : (pairs.map Keyed.key).Nodup := by
  obtain ⟨declared, -, hcoherent, rfl⟩ := keyed_eq_ok_iff.1 h
  exact ((List.mergeSort_perm declared _).map Keyed.key).nodup_iff.2 hcoherent.nodup

theorem stripped_iff_of_keyed {key : Key} {n : Node} :
    Stripped elements key n ↔ ∃ k ∈ pairs, k.key = key ∧ k.node = n := by
  constructor
  · rintro ⟨x, hx, hn⟩
    obtain ⟨k, hk, hxk⟩ := exists_mem_keyed h hx
    exact ⟨k, hk, hxk.eq_of_stripped ⟨x, List.mem_singleton_self x, hn⟩⟩
  · rintro ⟨k, hk, rfl, rfl⟩
    exact stripped_of_mem_keyed h hk

theorem Stripped.unique {key : Key} {n n' : Node} (hn : Stripped elements key n)
    (hn' : Stripped elements key n') : n = n' := by
  obtain ⟨k, hk, rfl, rfl⟩ := (stripped_iff_of_keyed h).1 hn
  obtain ⟨k', hk', hkey, rfl⟩ := (stripped_iff_of_keyed h).1 hn'
  rw [List.inj_on_of_nodup_map (nodup_keyed h) hk' hk hkey]

theorem exists_keyed_of_perm {elements' : List Node} (hperm : elements'.Perm elements) :
    ∃ pairs', keyed elements' = .ok pairs' ∧ pairs'.Perm pairs := by
  obtain ⟨declared, hkeyed, hcoherent, rfl⟩ := keyed_eq_ok_iff.1 h
  obtain ⟨declared', hkeyed', hdeclared⟩ := List.perm_comp_forall₂ hperm hkeyed
  refine ⟨_, keyed_eq_ok_iff.2 ⟨declared', hkeyed', hcoherent.perm (hdeclared.map _), rfl⟩, ?_⟩
  exact (List.mergeSort_perm ..).trans (hdeclared.trans (List.mergeSort_perm ..).symm)

/-- Positions are compared in the same order whatever the order they are declared in. -/
theorem keyed_of_perm (hindex : ∀ k ∈ pairs, ∃ i, k.key = .index i) {elements' : List Node}
    (hperm : elements'.Perm elements) : keyed elements' = .ok pairs := by
  obtain ⟨pairs', hpairs', hsame⟩ := exists_keyed_of_perm h hperm
  have hascending := pairwise_keyed hpairs' fun k hk => hindex k (hsame.subset hk)
  rw [hpairs', eq_of_ascending hascending (pairwise_keyed h hindex) hsame]

end

def Distinguished (name : String) (nodes : List Node) : Prop :=
  nodes.Pairwise fun m m' => ∀ value, IdentifiedBy name m value → ¬ IdentifiedBy name m' value

theorem Distinguished.of_perm {name : String} {nodes nodes' : List Node}
    (h : Distinguished name nodes) (hperm : nodes'.Perm nodes) : Distinguished name nodes' :=
  (hperm.pairwise_iff fun hne value hm' hm => hne value hm hm').2 h

theorem Distinguished.firstWith_iff {name value : String} {nodes : List Node} {n : Node}
    (h : Distinguished name nodes) :
    FirstWith name value nodes n ↔ n ∈ nodes ∧ IdentifiedBy name n value := by
  constructor
  · rintro ⟨i, hi, hn, -⟩
    exact ⟨List.mem_of_getElem? hi, hn⟩
  · rintro ⟨hmem, hn⟩
    obtain ⟨i, hi⟩ := List.mem_iff_getElem?.1 hmem
    refine ⟨i, hi, hn, fun j hj m hm hvalue => ?_⟩
    obtain ⟨hilt, rfl⟩ := List.getElem?_eq_some_iff.1 hi
    obtain ⟨hjlt, rfl⟩ := List.getElem?_eq_some_iff.1 hm
    exact List.pairwise_iff_getElem.1 h j i hjlt hilt hj value hvalue hn

end DocMatch.Correlation
