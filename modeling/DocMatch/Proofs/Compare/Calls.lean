import DocMatch.Compare
import DocMatch.Proofs.Correlation
import DocMatch.Proofs.Fields

/-!
What a comparison goes on to. One level of a comparison, with all that it notes, leaves the pairs of
nodes below it to nested comparisons: of fields of one name, and of elements that a position or an
identity pairs. Main statements: `nodes_eq`, one level unfolded, and `Call.within`, a nested
comparison is about a proper part of the actual node's bytes, whatever the kinds and bytes of
either node are.
-/

namespace DocMatch.Compare

open Correlation

def arraysBody (compare : String → Node → Node → Traced Verdict) (path : String)
    (expected actual : List Node) : Traced Verdict :=
  compareArrays path expected actual fun path' e a _ => compare path' e a

def body (config : Config) (compare : String → Node → Node → Traced Verdict) (path : String)
    (e a : Node) : Traced Verdict :=
  Traced.noting (.visiting path e.kind a.kind)
    (match a.kind with
    | .absent => .pure (wrongKind path e a)
    | .string => .pure (string path e a)
    | .number => .pure (number config path e a)
    | .boolean => .pure (boolean path e a)
    | .null => .pure (null path e a)
    | .array =>
      match Document.elements a.raw with
      | .error error => .pure (.failed (byValue path e a) error)
      | .ok as =>
        match e.kind with
        | .array =>
          match Document.elements e.raw with
          | .error error => .pure (.failed (byValue path e a) error)
          | .ok es => arraysBody compare path es as
        | .string => .pure (arrayLength path e a as.length)
        | kind => .pure (.failed (byKind path e a) (.arrayAssertionType kind))
    | .object =>
      match bothFields e a with
      | .error error => .pure (.failed (byValue path e a) error)
      | .ok (fs, gs) =>
        Traced.firstFailure
          (fun field =>
            match gs.get? field.1 with
            | none => .pure (missing (path ++ "." ++ field.1) field.2)
            | some a' => compare (path ++ "." ++ field.1) field.2 a')
          fs.toList)

theorem nodes_eq (config : Config) (path : String) (e a : Node) :
    nodes config path e a = body config (nodes config) path e a := by
  rw [nodes, body]
  congr 1
  cases a.kind with
  | array =>
    dsimp only
    split
    next error ha => rw [ha]
    next as ha =>
      rw [ha]
      rfl
  | object =>
    dsimp only
    split
    next error hb => rw [hb]
    next fs gs hb =>
      rw [hb]
      dsimp only
      congr 1
      funext field
      split
      next hn => rw [hn]
      next a' ha => rw [ha]
  | _ => rfl

/-- The comparisons of elements that comparing two arrays at a path goes on to. -/
inductive ElementCall (path : String) (es as : List Node) : String → Node → Node → Prop where
  | position {pairs : List Keyed} {k : Keyed} {i : Nat} {a' : Node} :
      (∀ n ∈ es, n.kind = .object) → keyed es = .ok pairs → k ∈ pairs → k.key = .index i →
      as[i]? = some a' → ElementCall path es as (path ++ k.key.segment) k.node a'
  | identity {pairs : List Keyed} {k : Keyed} {name value : String} {a' : Node} :
      (∀ n ∈ es, n.kind = .object) → keyed es = .ok pairs → k ∈ pairs →
      k.key = .identity name value → FirstWith name value as a' →
      ElementCall path es as (path ++ k.key.segment) k.node a'

/-- The comparisons that comparing two nodes at a path goes on to, up to the first that fails. What
is looked at are the kinds and the bytes as they are, whether they agree or not. -/
inductive Call (path : String) (e a : Node) : String → Node → Node → Prop where
  | field {fs gs : Fields} {name : String} {e' a' : Node} :
      a.kind = .object → bothFields e a = .ok (fs, gs) → fs.get? name = some e' →
      gs.get? name = some a' → Call path e a (path ++ "." ++ name) e' a'
  | element {es as : List Node} {path' : String} {e' a' : Node} :
      a.kind = .array → Document.elements a.raw = .ok as → e.kind = .array →
      Document.elements e.raw = .ok es → ElementCall path es as path' e' a' →
      Call path e a path' e' a'

theorem ElementCall.mem {path : String} {es as : List Node} {path' : String} {e' a' : Node}
    (h : ElementCall path es as path' e' a') : a' ∈ as := by
  cases h with
  | position _ _ _ _ ha' => exact List.mem_of_getElem? ha'
  | identity _ _ _ _ ha' => exact ha'.mem

/-- The expected node of a nested comparison may be put together anew, the actual one never is. -/
theorem Call.within {path : String} {e a : Node} {path' : String} {e' a' : Node}
    (h : Call path e a path' e' a') : Document.Within a'.raw a.raw := by
  cases h with
  | field _ hboth _ ha' => exact Document.fields_get? (bothFields_snd hboth) ha'
  | element _ has _ _ hcall => exact Document.elements_mem has a' hcall.mem

section

variable {as : List Node} (compare : PairComparison as) {path : String} {es : List Node}
  {pairs : List Keyed}

theorem compareKeyed_index (h : ∀ k ∈ pairs, ∃ i, k.key = .index i) :
    compareKeyed compare path es pairs = Traced.firstFailure (compareAt compare path) pairs := by
  cases pairs with
  | nil => rfl
  | cons k pairs =>
    obtain ⟨i, hi⟩ := h k (List.mem_cons_self ..)
    simp only [compareKeyed, List.head?_cons, Option.map_some, hi]

theorem compareKeyed_identity {name : String} (hne : pairs ≠ [])
    (h : ∀ k ∈ pairs, ∃ value, k.key = .identity name value) :
    compareKeyed compare path es pairs =
      match identityTexts name 0 as with
      | .error e => .pure (.failed (listing path es as) e)
      | .ok texts => Traced.firstFailure (compareIdentified compare path es texts) pairs := by
  cases pairs with
  | nil => exact absurd rfl hne
  | cons k pairs =>
    obtain ⟨value, hk⟩ := h k (List.mem_cons_self ..)
    rewrite [compareKeyed, List.head?_cons, Option.map_some, hk]
    rfl

end

end DocMatch.Compare
