import DocMatch.Correlation.Arrays
import DocMatch.Expression.StringTest

/-!
Comparing an expected with an actual node. The kind of the actual node decides what is compared; the
expected side may hold a value, an expression that stands for a test, or, in arrays of objects, keys
that pair elements. The first difference or error ends the comparison, and fields are visited in the
order of their keys. Every nested comparison is about a node whose bytes are a proper part of the
actual node's bytes, so there is an end to it, whatever the expected side holds.
-/

namespace DocMatch

structure Config where
  /-- How far an actual number may lie from an expected number. -/
  tolerance : Binary64
  deriving DecidableEq, Repr

namespace Config

/-- Five hundredths. -/
def default : Config := ⟨.ofDecimal false 5 (-2)⟩

def isValid (config : Config) : Bool :=
  config.tolerance.isFinite && !config.tolerance.lt .zero

def check (config : Config) : Except MatchError Unit :=
  if config.isValid then .ok () else .error (.invalidTolerance config.tolerance)

end Config

namespace Compare

def byValue (path : String) (expected actual : Node) : Diagnostic :=
  { path, expected := expected.text, actual := actual.text }

def byKind (path : String) (expected actual : Node) : Diagnostic :=
  { path, expected := expected.kind.name, actual := actual.kind.name }

def wrongKind (path : String) (expected actual : Node) : Verdict :=
  .failed (byKind path expected actual) (.typeMismatch expected.kind actual.kind)

def string (path : String) (expected actual : Node) : Verdict :=
  if expected.kind ≠ .string then wrongKind path expected actual
  else .ofTest (byValue path expected actual) do
    let test ← StringTest.ofExpected (← expected.stringValue)
    test.holds (← actual.stringValue)

def number (config : Config) (path : String) (expected actual : Node) : Verdict :=
  let here := byValue path expected actual
  match actual.numberValue with
  | .error e => .failed here e
  | .ok x =>
    match expected.kind with
    | .string => .ofTest here do
      let test ← NumberTest.ofExpected (← expected.stringValue)
      pure (test.holds x)
    | .number => .ofTest here do
      let target ← expected.numberValue
      pure ((NumberTest.approx target config.tolerance).holds x)
    | kind => .failed (byKind path expected actual) (.numberAssertionType kind)

def boolean (path : String) (expected actual : Node) : Verdict :=
  if expected.kind ≠ .boolean then wrongKind path expected actual
  else .ofTest (byValue path expected actual) do
    let b ← expected.booleanValue
    pure (b == (← actual.booleanValue))

def null (path : String) (expected actual : Node) : Verdict :=
  match expected.kind with
  | .null => .matched
  | .string =>
    match (do Emptiness.ofExpected? (← expected.stringValue) : Except MatchError _) with
    | .error e => .failed (byValue path expected actual) e
    | .ok (some demand) => .ofTest (byValue path expected actual) (.ok (demand.holds 0))
    | .ok none => wrongKind path expected actual
  | _ => wrongKind path expected actual

def arrayLength (path : String) (expected actual : Node) (count : Nat) : Verdict :=
  .ofTest (byValue path expected actual) do
    let text ← expected.stringValue
    match ← Emptiness.ofExpected? text with
    | some demand => pure (demand.holds count)
    | none => throw (.arrayAssertionNotAllowed text)

/-- Whether an expected field may be missing, which only one that demands emptiness may. -/
def mayBeMissing (expected : Node) : Except MatchError Bool :=
  if expected.kind ≠ .string then .ok false
  else do pure ((← Emptiness.ofExpected? (← expected.stringValue)) = some .empty)

def missing (path : String) (expected : Node) : Verdict :=
  match mayBeMissing expected with
  | .error e => .failed (byValue path expected .absent) e
  | .ok true => .matched
  | .ok false => .mismatch { path, expected := expected.text, actual := Kind.absent.name }

/-- The fields of both objects, each object checked before either is taken apart. -/
def bothFields (expected actual : Node) : Except MatchError (Fields × Fields) := do
  Document.checkObject actual.raw
  Document.checkObject expected.raw
  let ofExpected ← Document.fields expected.raw
  let ofActual ← Document.fields actual.raw
  pure (ofExpected, ofActual)

theorem bothFields_snd {expected actual : Node} {both : Fields × Fields}
    (h : bothFields expected actual = .ok both) : Document.fields actual.raw = .ok both.2 := by
  simp only [bothFields, bind, Except.bind] at h
  repeat' split at h
  all_goals simp_all [pure, Except.pure]
  subst h
  rfl

def nodes (config : Config) (path : String) (expected actual : Node) : Traced Verdict :=
  Traced.noting (.visiting path expected.kind actual.kind)
    (match actual.kind with
    | .absent => .pure (wrongKind path expected actual)
    | .string => .pure (string path expected actual)
    | .number => .pure (number config path expected actual)
    | .boolean => .pure (boolean path expected actual)
    | .null => .pure (null path expected actual)
    | .array =>
      match ha : Document.elements actual.raw with
      | .error e => .pure (.failed (byValue path expected actual) e)
      | .ok actualElements =>
        match expected.kind with
        | .array =>
          match Document.elements expected.raw with
          | .error e => .pure (.failed (byValue path expected actual) e)
          | .ok expectedElements =>
            Correlation.compareArrays path expectedElements actualElements fun path' e a h =>
              have : a.raw.length < actual.raw.length := (Document.elements_mem ha a h).2
              nodes config path' e a
        | .string => .pure (arrayLength path expected actual actualElements.length)
        | kind => .pure (.failed (byKind path expected actual) (.arrayAssertionType kind))
    | .object =>
      match hb : bothFields expected actual with
      | .error e => .pure (.failed (byValue path expected actual) e)
      | .ok (ofExpected, ofActual) =>
        Traced.firstFailure
          (fun (name, e) =>
            match hn : ofActual.get? name with
            | none => .pure (missing (path ++ "." ++ name) e)
            | some a =>
              have : a.raw.length < actual.raw.length :=
                (Document.fields_get? (bothFields_snd hb) hn).2
              nodes config (path ++ "." ++ name) e a)
          ofExpected.toList)
termination_by actual.raw.length

def arrays (config : Config) (path : String) (expected actual : List Node) : Traced Verdict :=
  Correlation.compareArrays path expected actual fun path' e a _ => nodes config path' e a

def objectRoot (data : Bytes) : Except MatchError Node := do
  let root ← Document.root data
  if root.kind ≠ .object then throw (.invalidDocument (.rootNotObject root.kind))
  pure root

def documents (config : Config) (expected actual : Bytes) : Traced Verdict :=
  match (do pure (← objectRoot expected, ← objectRoot actual) : Except MatchError (Node × Node)) with
  | .error e =>
    .pure (.failed { path := "", expected := Utf8.lossy expected, actual := Utf8.lossy actual } e)
  | .ok (e, a) => nodes config "" e a

end Compare

end DocMatch
