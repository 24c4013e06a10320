import Mathlib
import DocMatch.Proofs.Compare.Events

/-!
Why comparisons come to an end. A comparison depends on the comparisons that it goes on to and on no
others, and each of those is about a proper part of the actual node's bytes, whereas the expected
node may have been written anew. So no more comparisons stand open at a time than the actual node has
bytes, and one, and what one level does determines the comparison. Main statement:
`nodes_terminates`.
-/

namespace DocMatch.Compare

open Correlation Traced

/-- Comparisons that stand open at a time, each called for by the one before: how many there are
from the first, of `e` and `a`, to the last. -/
inductive Pending (path : String) (e a : Node) : Nat → String → Node → Node → Prop where
  | one : Pending path e a 1 path e a
  | more {depth : Nat} {path' path'' : String} {e' a' e'' a'' : Node} :
      Pending path e a depth path' e' a' → Call path' e' a' path'' e'' a'' →
      Pending path e a (depth + 1) path'' e'' a''

theorem Pending.depth_le {path : String} {e a : Node} {depth : Nat} {path' : String} {e' a' : Node}
    (h : Pending path e a depth path' e' a') : depth + a'.raw.length ≤ a.raw.length + 1 := by
  -- by induction on the comparisons that stand open, each of which leaves fewer bytes
  induction h with
  | one => omega
  | more _ hcall ih =>
    have hlt := hcall.within.2
    omega

theorem iterate_body (config : Config) (base : String → Node → Node → Traced Verdict) {depth : Nat}
    {path : String} {e a : Node} (h : a.raw.length < depth) :
    (body config)^[depth] base path e a = nodes config path e a := by
  induction depth generalizing path e a with
  | zero => exact absurd h (Nat.not_lt_zero _)
  | succ depth ih =>
    rw [Function.iterate_succ_apply', nodes_eq]
    refine body_congr fun p e' a' hcall => ih ?_
    exact Nat.lt_of_lt_of_le hcall.within.2 (Nat.le_of_lt_succ h)

theorem eq_nodes_of_body {config : Config} {f : String → Node → Node → Traced Verdict}
    (h : ∀ path e a, f path e a = body config f path e a) : f = nodes config := by
  have hfixed : Function.IsFixedPt (body config) f :=
    funext fun path => funext fun e => funext fun a => (h path e a).symm
  funext path e a
  rw [← iterate_body config f (Nat.lt_succ_self _), hfixed.iterate]

theorem exists_rewritten_call : ∃ path e a path' e' a',
    Call path e a path' e' a' ∧ ¬ e'.raw <:+: e.raw := by
  have hkeyed : keyed [⟨.object, Bytes.ofString r#"{"_gst_index":0}"#⟩] =
      .ok [⟨.index 0, Bytes.ofString r#"{}"#⟩] := by cbv
  have has : Document.elements (Bytes.ofString "[2]") = .ok [⟨.number, Bytes.ofString "2"⟩] := by
    cbv
  have hes : Document.elements (Bytes.ofString r#"[{"_gst_index":0}]"#) =
      .ok [⟨.object, Bytes.ofString r#"{"_gst_index":0}"#⟩] := by cbv
  have helement : ElementCall "" [⟨.object, Bytes.ofString r#"{"_gst_index":0}"#⟩]
      [⟨.number, Bytes.ofString "2"⟩] _ _ _ :=
    .position (List.forall_mem_singleton.2 rfl) hkeyed (List.mem_singleton_self _) rfl rfl
  refine ⟨"", ⟨.array, Bytes.ofString r#"[{"_gst_index":0}]"#⟩, ⟨.array, Bytes.ofString "[2]"⟩,
    _, _, _, .element rfl has rfl hes helement, ?_⟩
  decide +kernel

/-- A comparison, of nodes of any kinds and bytes, is determined by what one level of it does. It
goes on only to elements of the actual array, or to proper parts of the actual node's bytes, so at
no time do more comparisons stand open than the node has bytes, and one: unfolded as often, the
comparison is there, whatever would come below. The expected nodes need not be parts of one
another. -/
theorem nodes_terminates (config : Config) :
    (∀ path e a, nodes config path e a = body config (nodes config) path e a) ∧
    (∀ path es as, arrays config path es as = arraysBody (nodes config) path es as) ∧
    (∀ compare compare' path e a,
      (∀ path' e' a', Call path e a path' e' a' → compare path' e' a' = compare' path' e' a') →
      body config compare path e a = body config compare' path e a) ∧
    (∀ compare compare' path es as,
      (∀ path' e' a', ElementCall path es as path' e' a' →
        compare path' e' a' = compare' path' e' a') →
      arraysBody compare path es as = arraysBody compare' path es as) ∧
    (∀ path e a path' e' a', Call path e a path' e' a' →
      a'.raw <:+: a.raw ∧ a'.raw.length < a.raw.length) ∧
    (∀ path es as path' e' a', ElementCall path es as path' e' a' → a' ∈ as) ∧
    (∀ path e a depth path' e' a', Pending path e a depth path' e' a' →
      depth ≤ a.raw.length + 1) ∧
    (∀ base path e a, (body config)^[a.raw.length + 1] base path e a = nodes config path e a) ∧
    (∀ f, (∀ path e a, f path e a = body config f path e a) → f = nodes config) ∧
    ∃ path e a path' e' a', Call path e a path' e' a' ∧ ¬ e'.raw <:+: e.raw :=
  ⟨nodes_eq config, fun _ _ _ => rfl, fun _ _ _ _ _ => body_congr,
    fun _ _ _ _ _ => arraysBody_congr, fun _ _ _ _ _ _ => Call.within,
    fun _ _ _ _ _ _ => ElementCall.mem,
    fun _ _ _ _ _ _ _ h => Nat.le_trans (Nat.le_add_right _ _) h.depth_le,
    fun base _ _ _ => iterate_body config base (Nat.lt_succ_self _), fun _ => eq_nodes_of_body,
    exists_rewritten_call⟩

end DocMatch.Compare
