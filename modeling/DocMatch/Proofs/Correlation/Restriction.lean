import DocMatch.Proofs.Correlation
import DocMatch.Proofs.Fields.Order

/-!
Some of the elements of an expected array. Elements that are left out take their keys with them and
change nothing about the keys of the others, so the lowest positions, and the identities declared
first, are compared first and as in the whole array. Main statements: `Among.exists_keyed`,
`keyed_namesUpTo`, `keyed_prefix` and `keyed_take`.
-/

namespace DocMatch.Correlation

/-- Objects with keys that are pairwise distinct and among those of the other elements. -/
structure Among (elements elements' : List Node) : Prop where
  nonempty : elements ≠ []
  objects : ∀ x ∈ elements, x.kind = .object
  distinct : elements.Pairwise fun x y => ∀ key, HasKey x key → ¬ HasKey y key
  shared : ∀ x ∈ elements, ∃ key, HasKey x key ∧ ∃ y ∈ elements', HasKey y key

theorem nodup_of_keyedAs {elements : List Node} {declared : List Keyed}
    (h : List.Forall₂ KeyedAs elements declared)
    (hdistinct : elements.Pairwise fun x y => ∀ key, HasKey x key → ¬ HasKey y key) :
    (declared.map Keyed.key).Nodup := by
  induction h with
  | nil => exact List.nodup_nil
  | @cons x k rest more hxk hrest ih =>
    obtain ⟨hx, hdistinct⟩ := List.pairwise_cons.1 hdistinct
    refine List.nodup_cons.2 ⟨fun hmem => ?_, ih hdistinct⟩
    obtain ⟨k', hk', hkey⟩ := List.mem_map.1 hmem
    obtain ⟨y, hy, hyk⟩ := exists_of_mem_right hrest k' hk'
    exact hx y hy k.key hxk.1 (hkey ▸ hyk.1)

theorem Among.exists_keyed {elements elements' : List Node} (h : Among elements elements')
    {pairs' : List Keyed} (hpairs' : keyed elements' = .ok pairs') :
    ∃ pairs, keyed elements = .ok pairs ∧ ∀ k ∈ pairs, ∃ k' ∈ pairs', k'.key = k.key := by
  have hkeyed : ∀ x ∈ elements, ∃ k, KeyedAs x k := by
    intro x hx
    obtain ⟨key, hkey, -⟩ := h.shared x hx
    obtain ⟨raw, hraw⟩ := hkey.exists_withoutField key.field
    exact ⟨⟨key, raw⟩, hkey, hraw⟩
  obtain ⟨declared, hdeclared⟩ := exists_forall₂ hkeyed
  have hshared : ∀ k ∈ declared, ∃ k' ∈ pairs', k'.key = k.key := by
    intro k hk
    obtain ⟨x, hx, hxk⟩ := exists_of_mem_right hdeclared k hk
    obtain ⟨key, hkey, y, hy, hykey⟩ := h.shared x hx
    obtain ⟨k', hk', hyk'⟩ := exists_mem_keyed hpairs' hy
    exact ⟨k', hk', (hyk'.1.unique hykey).trans (hkey.unique hxk.1)⟩
  -- What keys have to agree on is said of them as declared, before they are sorted.
  obtain ⟨declared', -, hcoherent, rfl⟩ := keyed_eq_ok_iff.1 hpairs'
  obtain ⟨name?, hname⟩ := hcoherent.name
  have hnames : ∀ key ∈ declared.map Keyed.key, key.name? = name? := by
    intro key hkey
    obtain ⟨k, hk, rfl⟩ := List.mem_map.1 hkey
    obtain ⟨k', hk', heq⟩ := hshared k hk
    exact heq ▸ hname _ (List.mem_map_of_mem (List.mem_mergeSort.1 hk'))
  have hnodup : (declared.map Keyed.key).Nodup := nodup_of_keyedAs hdeclared h.distinct
  exact ⟨_, keyed_eq_ok_iff.2 ⟨declared, hdeclared, ⟨⟨name?, hnames⟩, hnodup⟩, rfl⟩,
    fun k hk => hshared k (List.mem_mergeSort.1 hk)⟩

def namesUpTo (limit : Nat) (x : Node) : Bool :=
  match readKey x 0 with
  | .ok (.index i) => i ≤ limit
  | _ => false

theorem namesUpTo_eq {x : Node} {i : Nat} (h : HasKey x (.index i)) (limit : Nat) :
    namesUpTo limit x = decide (i ≤ limit) := by
  rw [namesUpTo, h.readKey]

theorem forall₂_filter {α β : Type} {R : α → β → Prop} {p : α → Bool} {q : β → Bool} {as : List α}
    {bs : List β} (h : List.Forall₂ R as bs) (hpq : ∀ a b, b ∈ bs → R a b → p a = q b) :
    List.Forall₂ R (as.filter p) (bs.filter q) := by
  induction h with
  | nil => exact .nil
  | @cons a b as bs hab _ ih =>
    have hrest := ih fun a b hb => hpq a b (List.mem_cons_of_mem _ hb)
    have hhead := hpq a b (List.mem_cons_self ..) hab
    by_cases hq : q b = true
    · rw [List.filter_cons_of_pos hq, List.filter_cons_of_pos (hhead.trans hq)]
      exact .cons hab hrest
    · rw [List.filter_cons_of_neg hq, List.filter_cons_of_neg (hhead ▸ hq)]
      exact hrest

section

variable {declared : List Keyed}

theorem pairwise_mergeSort (h : (declared.map Keyed.key).Nodup)
    (hindex : ∀ k ∈ declared, ∃ i, k.key = .index i) :
    (declared.mergeSort fun a b => a.key.rank ≤ b.key.rank).Pairwise
      fun a b => a.key.rank < b.key.rank := by
  have hsorted : (declared.mergeSort fun a b => a.key.rank ≤ b.key.rank).Pairwise
      fun a b => decide (a.key.rank ≤ b.key.rank) = true :=
    List.pairwise_mergeSort (by simpa using fun a b c => Nat.le_trans)
      (by simpa using fun a b => Nat.le_total _ _) _
  have hperm := List.mergeSort_perm declared fun a b => decide (a.key.rank ≤ b.key.rank)
  have hdistinct := List.pairwise_map.1 ((hperm.map Keyed.key).nodup_iff.2 h)
  refine (hsorted.and hdistinct).imp_of_mem fun {a b} ha hb hab => ?_
  obtain ⟨i, hi⟩ := hindex a (List.mem_mergeSort.1 ha)
  obtain ⟨j, hj⟩ := hindex b (List.mem_mergeSort.1 hb)
  obtain ⟨hle, hne⟩ := hab
  rw [hi, hj] at hne hle ⊢
  exact Nat.lt_of_le_of_ne (of_decide_eq_true hle) fun heq => hne (congrArg Key.index heq)

/-- There is one way to put things with distinct ranks in ascending order. -/
theorem eq_of_ascending {pairs pairs' : List Keyed}
    (h : pairs.Pairwise fun a b => a.key.rank < b.key.rank)
    (h' : pairs'.Pairwise fun a b => a.key.rank < b.key.rank) (hperm : pairs.Perm pairs') :
    pairs = pairs' :=
  List.Perm.eq_of_pairwise (fun _ _ _ _ hab hba => absurd hab (Nat.lt_asymm hba)) h h' hperm

theorem mergeSort_filter (h : (declared.map Keyed.key).Nodup)
    (hindex : ∀ k ∈ declared, ∃ i, k.key = .index i) (p : Keyed → Bool) :
    ((declared.filter p).mergeSort fun a b => a.key.rank ≤ b.key.rank) =
      (declared.mergeSort fun a b => a.key.rank ≤ b.key.rank).filter p := by
  have hsub : (declared.filter p).Sublist declared := List.filter_sublist
  have hleft := pairwise_mergeSort (h.sublist (hsub.map Keyed.key))
    fun k hk => hindex k (hsub.subset hk)
  refine eq_of_ascending hleft ((pairwise_mergeSort h hindex).filter p) ?_
  exact (List.mergeSort_perm _ _).trans ((List.mergeSort_perm declared _).symm.filter p)

theorem mergeSort_of_identities {name : String}
    (h : ∀ k ∈ declared, ∃ value, k.key = .identity name value) :
    (declared.mergeSort fun a b => a.key.rank ≤ b.key.rank) = declared := by
  refine List.mergeSort_of_pairwise (List.pairwise_of_forall_mem_list fun a ha b hb => ?_)
  obtain ⟨value, hvalue⟩ := h a ha
  rw [hvalue]
  exact decide_eq_true (Nat.zero_le _)

end

section

variable {elements : List Node} {pairs : List Keyed} (h : keyed elements = .ok pairs)

include h

theorem keyed_namesUpTo (hindex : ∀ k ∈ pairs, ∃ i, k.key = .index i) (limit : Nat) :
    keyed (elements.filter (namesUpTo limit)) = .ok (pairs.filter (·.key.rank ≤ limit)) := by
  obtain ⟨declared, hkeyed, hcoherent, rfl⟩ := keyed_eq_ok_iff.1 h
  have hdeclared : ∀ k ∈ declared, ∃ i, k.key = .index i :=
    fun k hk => hindex k (List.mem_mergeSort.2 hk)
  refine keyed_eq_ok_iff.2 ⟨declared.filter (·.key.rank ≤ limit), ?_,
    hcoherent.sublist (List.filter_sublist.map Keyed.key),
    mergeSort_filter hcoherent.nodup hdeclared _⟩
  refine forall₂_filter hkeyed fun x k hk hxk => ?_
  obtain ⟨i, hi⟩ := hdeclared k hk
  rw [namesUpTo_eq (hi ▸ hxk.1), hi]
  rfl

theorem pairwise_keyed (hindex : ∀ k ∈ pairs, ∃ i, k.key = .index i) :
    pairs.Pairwise fun a b => a.key.rank < b.key.rank := by
  obtain ⟨declared, -, hcoherent, rfl⟩ := keyed_eq_ok_iff.1 h
  exact pairwise_mergeSort hcoherent.nodup fun k hk => hindex k (List.mem_mergeSort.2 hk)

/-- The positions up to a limit are compared first. -/
theorem keyed_prefix (hindex : ∀ k ∈ pairs, ∃ i, k.key = .index i) (limit : Nat) :
    pairs.filter (·.key.rank ≤ limit) <+: pairs := by
  refine filter_prefix (pairwise_keyed h hindex) fun a b hab hb => ?_
  exact decide_eq_true (Nat.le_trans (Nat.le_of_lt hab) (of_decide_eq_true hb))

theorem exists_limit (hne : elements ≠ []) (hindex : ∀ k ∈ pairs, ∃ i, k.key = .index i) :
    ∃ limit, elements.filter (namesUpTo limit) = elements := by
  obtain ⟨last, hlast⟩ := exists_last (pairwise_keyed h hindex) (ne_nil_of_keyed hne h)
  refine ⟨last.key.rank, ?_⟩
  have hall : pairs.filter (·.key.rank ≤ last.key.rank) = pairs := by
    refine List.filter_eq_self.2 fun k hk => decide_eq_true ?_
    rcases hlast k hk with rfl | hlt
    · exact Nat.le_refl _
    · exact Nat.le_of_lt hlt
  have hfilter := length_keyed (keyed_namesUpTo h hindex last.key.rank)
  rw [hall, length_keyed h] at hfilter
  exact List.filter_eq_self.2 (List.length_filter_eq_length_iff.1 hfilter.symm)

section

variable {name : String} (hidentity : ∀ k ∈ pairs, ∃ value, k.key = .identity name value)

include hidentity

theorem keyedAs_of_identities :
    List.Forall₂ KeyedAs elements pairs ∧ Coherent (pairs.map Keyed.key) := by
  obtain ⟨declared, hkeyed, hcoherent, hsort⟩ := keyed_eq_ok_iff.1 h
  have hsame := mergeSort_of_identities fun k hk => hidentity k (hsort ▸ List.mem_mergeSort.2 hk)
  obtain rfl : declared = pairs := hsame.symm.trans hsort
  exact ⟨hkeyed, hcoherent⟩

theorem keyed_take (count : Nat) : keyed (elements.take count) = .ok (pairs.take count) := by
  obtain ⟨hkeyed, hcoherent⟩ := keyedAs_of_identities h hidentity
  have hsub : (pairs.take count).Sublist pairs := List.take_sublist ..
  exact keyed_eq_ok_iff.2 ⟨pairs.take count, List.forall₂_take count hkeyed,
    hcoherent.sublist (hsub.map Keyed.key),
    mergeSort_of_identities fun k hk => hidentity k (hsub.subset hk)⟩

end

end

end DocMatch.Correlation
