import Mathlib
import DocMatch.Proofs.Compare.Formatting
import DocMatch.Proofs.Correlation.Multiset

/-!
Arrays of expected scalars. They match exactly the arrays that hold the same nodes, each as often,
so the order of the elements has no part in how a comparison ends on either side. Only a container
among the actual elements is an error, and the first one is named. Main statement:
`scalars_unordered`.
-/

namespace DocMatch

namespace Compare

open Correlation Verdict

/-- The verdict on an array of expected scalars. -/
inductive ByScalars (path : String) (es as : List Node) : Verdict → Prop where
  | container {before after : List Node} {n : Node} :
      as = before ++ n :: after → (∀ m ∈ before, m.isPrimitive = true) → n.isPrimitive = false →
      ByScalars path es as (.failed (listing path es as) (.nonPrimitiveElement n.kind))
  | matched : (∀ n ∈ as, n.isPrimitive = true) → as.Perm es → ByScalars path es as .matched
  | differs : (∀ n ∈ as, n.isPrimitive = true) → ¬ as.Perm es →
      ByScalars path es as (.mismatch (listing path es as))

section

variable {path : String} {es as : List Node}

theorem byScalars_comparePrimitives : ByScalars path es as (comparePrimitives path es as) := by
  unfold comparePrimitives
  split
  next n hn =>
    obtain ⟨hcontainer, before, after, hsplit, hbefore⟩ := List.find?_eq_some_iff_append.1 hn
    exact .container hsplit (by simpa using hbefore) (by simpa using hcontainer)
  next hnone =>
    have hall : ∀ n ∈ as, n.isPrimitive = true := by simpa using hnone
    split
    next h => exact .matched hall (sameMultiset_iff_perm.1 h)
    next h => exact .differs hall (mt sameMultiset_iff_perm.2 h)

theorem byScalars (config : Config) (hes : ∀ n ∈ es, n.isPrimitive = true) :
    ByScalars path es as (arrays config path es as).value := by
  rw [arrays, value_compareArrays, arrayLevel, if_pos (List.all_eq_true.2 hes)]
  exact byScalars_comparePrimitives

variable {v : Verdict} (h : ByScalars path es as v)

include h

theorem ByScalars.matched_iff (hes : ∀ n ∈ es, n.isPrimitive = true) :
    v = .matched ↔ as.Perm es := by
  cases h with
  | @container before after n hsplit _ hn =>
    refine iff_of_false Verdict.noConfusion fun hperm => ?_
    have hmem : n ∈ es := hperm.subset (hsplit ▸ by simp)
    exact absurd (hes n hmem) (by simp [hn])
  | matched _ hperm => exact iff_of_true rfl hperm
  | differs _ hperm => exact iff_of_false Verdict.noConfusion hperm

theorem ByScalars.failed_iff :
    (∃ d error, v = .failed d error) ↔ ∃ n ∈ as, n.isPrimitive = false := by
  cases h with
  | @container before after n hsplit _ hn =>
    exact iff_of_true ⟨_, _, rfl⟩ ⟨n, hsplit ▸ by simp, hn⟩
  | matched hall _ => exact iff_of_false (by simp) (by simpa using hall)
  | differs hall _ => exact iff_of_false (by simp) (by simpa using hall)

theorem ByScalars.sameEnd {es' as' : List Node} {v' : Verdict} (h' : ByScalars path es' as' v')
    (hcontainer : (∃ n ∈ as, n.isPrimitive = false) ↔ ∃ n ∈ as', n.isPrimitive = false)
    (hperm : as.Perm es ↔ as'.Perm es') : SameEnd v v' := by
  rw [← h.failed_iff, ← h'.failed_iff] at hcontainer
  cases h with
  | container =>
    obtain ⟨d, error, rfl⟩ := hcontainer.1 ⟨_, _, rfl⟩
    cases h' with
    | container => exact .failed rfl rfl
  | matched _ hmatched =>
    cases h' with
    | container => exact absurd (hcontainer.2 ⟨_, _, rfl⟩) (by simp)
    | matched => exact .matched
    | differs _ hdiffers => exact absurd (hperm.1 hmatched) hdiffers
  | differs _ hdiffers =>
    cases h' with
    | container => exact absurd (hcontainer.2 ⟨_, _, rfl⟩) (by simp)
    | matched _ hmatched => exact absurd (hperm.2 hmatched) hdiffers
    | differs => exact .mismatch rfl

end

/-- Expected scalars match the arrays of the same nodes, in whatever order either side has them and
whichever side is expected. -/
theorem scalars_unordered (config : Config) (path : String) {es : List Node}
    (hes : ∀ n ∈ es, n.isPrimitive = true) (as : List Node) :
    (∀ xs ys : List Node, sameMultiset xs ys = true ↔ ys.Perm xs) ∧
    ByScalars path es as (arrays config path es as).value ∧
    ((∃ d error, (arrays config path es as).value = .failed d error) ↔
      ∃ n ∈ as, n.isPrimitive = false) ∧
    ((arrays config path es as).value = .matched ↔ as.Perm es) ∧
    (∀ es' as', es'.Perm es → as'.Perm as →
      SameEnd (arrays config path es' as').value (arrays config path es as).value) ∧
    ((∀ n ∈ as, n.isPrimitive = true) →
      SameEnd (arrays config path as es).value (arrays config path es as).value) := by
  have hscalars : ByScalars path es as (arrays config path es as).value := byScalars config hes
  refine ⟨fun _ _ => sameMultiset_iff_perm, hscalars, hscalars.failed_iff,
    hscalars.matched_iff hes, fun es' as' hexpected hactual => ?_, fun has => ?_⟩
  · have hes' : ∀ n ∈ es', n.isPrimitive = true := fun n hn => hes n (hexpected.subset hn)
    refine (byScalars config hes').sameEnd hscalars (by simp only [hactual.mem_iff]) ?_
    exact ⟨fun h => hactual.symm.trans (h.trans hexpected),
      fun h => hactual.trans (h.trans hexpected.symm)⟩
  · refine (byScalars config has).sameEnd hscalars ?_ List.perm_comm
    exact iff_of_false (by simpa using hes) (by simpa using has)

theorem scalars_unordered_repeated :
    ∃ x y : Node, (∀ n ∈ [x, y, x], n.isPrimitive = true) ∧
      (arrays ⟨.zero⟩ "" [x, y, x] [y, x, x]).value = .matched ∧
      (arrays ⟨.zero⟩ "" [x, y, x] [y, x, y]).value ≠ .matched ∧
      SameEnd (arrays ⟨.zero⟩ "" [x, x, y] [y, y, x]).value
        (arrays ⟨.zero⟩ "" [x, y, x] [y, x, y]).value := by
  have hprimitive : ∀ n ∈ [⟨.number, [byte '1']⟩, ⟨.string, [byte '1']⟩, ⟨.number, [byte '1']⟩],
      Node.isPrimitive n = true := by decide
  obtain ⟨-, -, -, hmatched, -, -⟩ := scalars_unordered ⟨.zero⟩ "" hprimitive
    [⟨.string, [byte '1']⟩, ⟨.number, [byte '1']⟩, ⟨.number, [byte '1']⟩]
  obtain ⟨-, -, -, hdiffers, hperm, -⟩ := scalars_unordered ⟨.zero⟩ "" hprimitive
    [⟨.string, [byte '1']⟩, ⟨.number, [byte '1']⟩, ⟨.string, [byte '1']⟩]
  exact ⟨_, _, hprimitive, hmatched.2 (by decide), mt hdiffers.1 (by decide),
    hperm _ _ (by decide) (by decide)⟩

end Compare

end DocMatch
