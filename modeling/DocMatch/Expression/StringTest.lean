import DocMatch.Expression.Parse

/-!
What an expected text demands of the value it is compared with, for each kind of value that a text
can be compared with.
-/

namespace DocMatch

inductive StringTest where
  | equal (text : String)
  | length (demand : Emptiness)
  /-- Within `delta` milliseconds of an instant, bounds included. -/
  | timestamp (instant : Timestamp) (delta : Nat)
  deriving DecidableEq, Repr

namespace StringTest

def ofExpected (expected : String) : Except MatchError StringTest := do
  match ← Expression.parse expected with
  | none => pure (equal expected)
  | some (.emptiness demand) => pure (length demand)
  | some (.timestamp instant delta) => pure (timestamp instant delta)
  | some (.number _) => throw (.notApplicable .beNumerically .string)

/-- Only an actual text that is no timestamp, where one is wanted, is an error. -/
def holds (actual : String) : StringTest → Except MatchError Bool
  | equal text => .ok (text = actual)
  | length demand => .ok (demand.holds actual.utf8ByteSize)
  | timestamp instant delta =>
    (Expression.parseTimestamp actual).map fun t =>
      (t.since instant).natAbs ≤ delta * 1000000

end StringTest

namespace NumberTest

def ofExpected (expected : String) : Except MatchError NumberTest := do
  match ← Expression.parse expected with
  | some (.number test) => pure test
  | _ => throw (.numberAssertionRequired expected)

end NumberTest

namespace Emptiness

def ofExpected? (expected : String) : Except MatchError (Option Emptiness) := do
  match ← Expression.parse expected with
  | some (.emptiness demand) => pure (some demand)
  | _ => pure none

end Emptiness

end DocMatch
