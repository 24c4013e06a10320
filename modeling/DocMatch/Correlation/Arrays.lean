import DocMatch.Correlation.Key
import DocMatch.Correlation.Multiset
import DocMatch.Verdict

/-!
Arrays against arrays. Scalars are compared as a multiset. Objects are paired by their keys and each
pair compared; how a pair is compared is left open here, so that this module says nothing about
nesting. Only actual elements are ever paired, and a comparison may rely on that.
-/

namespace DocMatch.Correlation

abbrev PairComparison (actual : List Node) :=
  String → Node → (a : Node) → a ∈ actual → Traced Verdict

def listing (path : String) (expected actual : List Node) : Diagnostic :=
  { path, expected := Node.describeAll expected, actual := Node.describeAll actual }

/-- A position past the end of the actual array has nothing to be compared with. -/
def compareAt {actual : List Node} (compare : PairComparison actual) (path : String) (k : Keyed) :
    Traced Verdict :=
  match h : actual[k.key.rank]? with
  | none => .pure .matched
  | some a => compare (path ++ k.key.segment) k.node a (List.mem_of_getElem? h)

/-- The counterpart of an identity is the first actual element that has it. -/
def compareIdentified {actual : List Node} (compare : PairComparison actual) (path : String)
    (expected : List Node) (texts : List String) (k : Keyed) : Traced Verdict :=
  let here := path ++ k.key.segment
  match k.key with
  | .index _ => .pure .matched
  | .identity _ value =>
    match h : (texts.idxOf? value).bind (actual[·]?) with
    | none => .pure (.mismatch (listing here expected actual))
    | some a =>
      compare here k.node a (by
        obtain ⟨i, -, hi⟩ := Option.bind_eq_some_iff.1 h
        exact List.mem_of_getElem? hi)

def comparePrimitives (path : String) (expected actual : List Node) : Verdict :=
  match actual.find? (!·.isPrimitive) with
  | some n => .failed (listing path expected actual) (.nonPrimitiveElement n.kind)
  | none =>
    if sameMultiset expected actual then .matched else .mismatch (listing path expected actual)

def compareKeyed {actual : List Node} (compare : PairComparison actual) (path : String)
    (expected : List Node) (pairs : List Keyed) : Traced Verdict :=
  match pairs.head?.map Keyed.key with
  | some (.identity name _) =>
    match identityTexts name 0 actual with
    | .error e => .pure (.failed (listing path expected actual) e)
    | .ok texts => Traced.firstFailure (compareIdentified compare path expected texts) pairs
  | _ => Traced.firstFailure (compareAt compare path) pairs

def compareArrays (path : String) (expected actual : List Node)
    (compare : PairComparison actual) : Traced Verdict :=
  Traced.noting (.comparingArrays path expected.length actual.length)
    (if expected.all Node.isPrimitive then .pure (comparePrimitives path expected actual)
    else if !expected.all (·.kind = .object) then
      .pure (.failed (listing path expected actual) .mixedArray)
    else
      match keyed expected with
      | .error e => .pure (.failed (listing path expected actual) e)
      | .ok pairs => compareKeyed compare path expected pairs)

end DocMatch.Correlation
