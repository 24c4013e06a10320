import DocMatch.Binary64.Basic
import DocMatch.Expression.Callee

/-!
Tests of a number. Each carries exactly the operands its comparison takes, so a wrong count is
refused where a test is made and cannot arise later.
-/

namespace DocMatch

inductive NumberTest where
  | equal (value : Binary64)
  | approx (target tolerance : Binary64)
  | greater (bound : Binary64)
  | greaterOrEqual (bound : Binary64)
  | less (bound : Binary64)
  | lessOrEqual (bound : Binary64)
  deriving DecidableEq, Repr

namespace NumberTest

def ofOperands? : Comparison → List Binary64 → Option NumberTest
  | .equal, [x] => some (equal x)
  | .approx, [x, t] => some (approx x t)
  | .greater, [x] => some (greater x)
  | .greaterOrEqual, [x] => some (greaterOrEqual x)
  | .less, [x] => some (less x)
  | .lessOrEqual, [x] => some (lessOrEqual x)
  | _, _ => none

def comparison : NumberTest → Comparison
  | equal _ => .equal
  | approx .. => .approx
  | greater _ => .greater
  | greaterOrEqual _ => .greaterOrEqual
  | less _ => .less
  | lessOrEqual _ => .lessOrEqual

def operands : NumberTest → List Binary64
  | approx x t => [x, t]
  | equal x | greater x | greaterOrEqual x | less x | lessOrEqual x => [x]

theorem ofOperands?_isSome (c : Comparison) (xs : List Binary64) :
    (ofOperands? c xs).isSome = decide (xs.length = c.arity) := by
  cases c <;> rcases xs with _ | ⟨x, _ | ⟨y, _ | ⟨z, xs⟩⟩⟩ <;> simp [ofOperands?, Comparison.arity]

theorem ofOperands?_operands (t : NumberTest) : ofOperands? t.comparison t.operands = some t := by
  cases t <;> rfl

/-- Whether `x` lies within the tolerance of the target, bounds included. Numbers written in decimal
are rounded when they are read, so the tolerance is widened by `epsilon` times the larger of the two
numbers, or by `epsilon` where both are below one. -/
def within (x target tolerance : Binary64) : Bool :=
  let scale := (x.abs.max target.abs).max .one
  (x.sub target).abs.le (tolerance.add (Binary64.epsilon.mul scale))

def holds (x : Binary64) : NumberTest → Bool
  | equal value => x.eq value
  | approx target tolerance => within x target tolerance
  | greater bound => bound.lt x
  | greaterOrEqual bound => bound.le x
  | less bound => x.lt bound
  | lessOrEqual bound => x.le bound

end NumberTest

end DocMatch
