import DocMatch.Proofs.Compare.Events

/-!
The path as a label. Where a comparison is said to take place shows in its notes and in its
diagnostic and has no part in anything else: all that a comparison says of places lies under the path
it was given. Main statement: `nodes_under`.
-/

namespace DocMatch

/-- The diagnostic with a path in front of its own. -/
def Diagnostic.under (q : String) (d : Diagnostic) : Diagnostic := { d with path := q ++ d.path }

def Event.under (q : String) : Event → Event
  | matchFailed category path => matchFailed category (q ++ path)
  | mismatch d => mismatch (d.under q)
  | visiting path expected actual => visiting (q ++ path) expected actual
  | comparingArrays path expected actual => comparingArrays (q ++ path) expected actual
  | e => e

namespace Verdict

def under (q : String) : Verdict → Verdict
  | matched => matched
  | mismatch d => mismatch (d.under q)
  | failed d e => failed (d.under q) e

variable {q : String} {v : Verdict}

theorem under_eq_matched_iff : v.under q = matched ↔ v = matched := by
  cases v <;> simp [under]

theorem diagnostic?_under : (v.under q).diagnostic? = v.diagnostic?.map (Diagnostic.under q) := by
  cases v <;> rfl

theorem under_ofTest (d : Diagnostic) (test : Except MatchError Bool) :
    (ofTest d test).under q = ofTest (d.under q) test := by
  rcases test with error | _ | _ <;> rfl

end Verdict

namespace Traced

def under (q : String) (x : Traced Verdict) : Traced Verdict :=
  ⟨x.events.map (Event.under q), x.value.under q⟩

theorem noting_under {q : String} {x y : Traced Verdict} (event : Event) (h : y = x.under q) :
    y.noting (event.under q) = (x.noting event).under q := by
  rw [h]
  rfl

theorem firstFailure_under {α : Type} {q : String} {compare compare' : α → Traced Verdict}
    {l : List α} (h : ∀ a ∈ l, compare' a = (compare a).under q) :
    firstFailure compare' l = (firstFailure compare l).under q := by
  -- by induction on the items: a path decides of no item whether it matches
  induction l with
  | nil => rfl
  | cons a rest ih =>
    obtain ⟨ha, hrest⟩ := List.forall_mem_cons.1 h
    have hvalue : (compare' a).value = (compare a).value.under q := congrArg Traced.value ha
    by_cases hmatched : (compare a).value = .matched
    · have hmatched' := hvalue.trans (Verdict.under_eq_matched_iff.2 hmatched)
      rw [firstFailure_cons_of_matched hmatched, firstFailure_cons_of_matched hmatched',
        ih hrest, ha]
      simp only [under, List.map_append]
    · have hmatched' : (compare' a).value ≠ .matched :=
        hvalue ▸ mt Verdict.under_eq_matched_iff.1 hmatched
      rw [firstFailure_cons_of_ne hmatched, firstFailure_cons_of_ne hmatched', ha]

end Traced

namespace Compare

open Correlation

variable {q path : String}

section

variable (e a : Node)

theorem string_under : string (q ++ path) e a = (string path e a).under q := by
  unfold string
  split
  · rfl
  · exact (Verdict.under_ofTest (byValue path e a) _).symm

theorem number_under (config : Config) :
    number config (q ++ path) e a = (number config path e a).under q := by
  unfold number
  dsimp only
  split
  · rfl
  · split
    · exact (Verdict.under_ofTest (byValue path e a) _).symm
    · exact (Verdict.under_ofTest (byValue path e a) _).symm
    · rfl

theorem boolean_under : boolean (q ++ path) e a = (boolean path e a).under q := by
  unfold boolean
  split
  · rfl
  · exact (Verdict.under_ofTest (byValue path e a) _).symm

theorem null_under : null (q ++ path) e a = (null path e a).under q := by
  unfold null
  split
  · rfl
  · split
    · rfl
    · exact (Verdict.under_ofTest (byValue path e a) _).symm
    · rfl
  · rfl

theorem arrayLength_under (count : Nat) :
    arrayLength (q ++ path) e a count = (arrayLength path e a count).under q :=
  (Verdict.under_ofTest (byValue path e a) _).symm

theorem missing_under : missing (q ++ path) e = (missing path e).under q := by
  unfold missing
  split <;> rfl

end

theorem comparePrimitives_under (es as : List Node) :
    comparePrimitives (q ++ path) es as = (comparePrimitives path es as).under q := by
  unfold comparePrimitives
  split
  · rfl
  · split <;> rfl

section

variable {as : List Node} {compare compare' : PairComparison as}
  (h : ∀ p e a ha, compare' (q ++ p) e a ha = (compare p e a ha).under q)

include h

theorem compareAt_under (k : Keyed) :
    compareAt compare' (q ++ path) k = (compareAt compare path k).under q := by
  unfold compareAt
  split
  · rfl
  · rw [String.append_assoc, h]

theorem compareIdentified_under (es : List Node) (texts : List String) (k : Keyed) :
    compareIdentified compare' (q ++ path) es texts k =
      (compareIdentified compare path es texts k).under q := by
  unfold compareIdentified
  dsimp only
  rw [String.append_assoc]
  split
  · rfl
  · split
    · rfl
    · exact h _ _ _ _

theorem compareArrays_under (es : List Node) :
    compareArrays (q ++ path) es as compare' = (compareArrays path es as compare).under q := by
  unfold compareArrays
  refine Traced.noting_under (.comparingArrays path es.length as.length) ?_
  split
  · exact congrArg Traced.pure (comparePrimitives_under es as)
  split
  · rfl
  split
  · rfl
  next pairs _ =>
    unfold compareKeyed
    split
    · split
      · rfl
      · exact Traced.firstFailure_under fun k _ => compareIdentified_under h es _ k
    · exact Traced.firstFailure_under fun k _ => compareAt_under h k

end

/-- One level of a comparison at a longer path, if that is so below. -/
theorem body_under {config : Config} {compare compare' : String → Node → Node → Traced Verdict}
    {e a : Node}
    (h : ∀ p e' a', Document.Within a'.raw a.raw →
      compare' (q ++ p) e' a' = (compare p e' a').under q) :
    body config compare' (q ++ path) e a = (body config compare path e a).under q := by
  unfold body
  refine Traced.noting_under (.visiting path e.kind a.kind) ?_
  cases hakind : a.kind with
  | absent => rfl
  | string => exact congrArg Traced.pure (string_under e a)
  | number => exact congrArg Traced.pure (number_under e a config)
  | boolean => exact congrArg Traced.pure (boolean_under e a)
  | null => exact congrArg Traced.pure (null_under e a)
  | array =>
    dsimp only
    split
    · rfl
    next as has =>
      split
      · split
        · rfl
        next es _ =>
          refine compareArrays_under (fun p e' a' ha' => h p e' a' ?_) es
          exact Document.elements_mem has a' ha'
      · exact congrArg Traced.pure (arrayLength_under e a as.length)
      · rfl
  | object =>
    dsimp only
    split
    · rfl
    next fs gs hboth =>
      refine Traced.firstFailure_under fun field _ => ?_
      have hpath : q ++ path ++ "." ++ field.1 = q ++ (path ++ "." ++ field.1) := by
        simp only [String.append_assoc]
      rw [hpath]
      split
      · exact congrArg Traced.pure (missing_under field.2)
      next a' ha' => exact h _ _ a' (Document.fields_get? (bothFields_snd hboth) ha')

theorem nodes_append (config : Config) (q path : String) (e a : Node) :
    nodes config (q ++ path) e a = (nodes config path e a).under q := by
  -- by induction on the bytes of the actual node
  induction hlen : a.raw.length using Nat.strongRecOn generalizing path e a with
  | ind n ih =>
    subst hlen
    rw [nodes_eq config (q ++ path), nodes_eq config path]
    exact body_under fun p e' a' hwithin => ih _ hwithin.2 p e' a' rfl

theorem arrays_append (config : Config) (q path : String) (es as : List Node) :
    arrays config (q ++ path) es as = (arrays config path es as).under q :=
  compareArrays_under (fun p e a _ => nodes_append config q p e a) es

/-- A path in front of that of a comparison is in front of all paths, and nothing else is changed. -/
theorem nodes_under (config : Config) (q path : String) :
    (∀ e a, nodes config (q ++ path) e a = (nodes config path e a).under q) ∧
    (∀ es as, arrays config (q ++ path) es as = (arrays config path es as).under q) ∧
    (∀ e a, ∀ d ∈ (nodes config path e a).value.diagnostic?, ∃ rest, d.path = path ++ rest) ∧
    ∀ es as, ∀ d ∈ (arrays config path es as).value.diagnostic?, ∃ rest, d.path = path ++ rest := by
  have hextends {x : Traced Verdict} :
      ∀ d ∈ (x.under path).value.diagnostic?, ∃ rest, d.path = path ++ rest := by
    intro d hd
    rw [Traced.under, Verdict.diagnostic?_under] at hd
    obtain ⟨d', -, rfl⟩ := Option.map_eq_some_iff.1 hd
    exact ⟨d'.path, rfl⟩
  refine ⟨nodes_append config q path, arrays_append config q path, fun e a => ?_, fun es as => ?_⟩
  · rw [← String.append_empty (s := path), nodes_append, String.append_empty]
    exact hextends
  · rw [← String.append_empty (s := path), arrays_append, String.append_empty]
    exact hextends

end Compare

end DocMatch
