/-!
The functions that an expected text may call and the comparisons of numbers, with the spellings that
the grammar and the messages share.
-/

namespace DocMatch

inductive Callee where
  | beEmpty
  | not
  | beTimestamp
  | beNumerically
  deriving DecidableEq, Repr

namespace Callee

def all : List Callee := [beEmpty, not, beTimestamp, beNumerically]

def name : Callee → String
  | beEmpty => "BeEmpty"
  | not => "Not"
  | beTimestamp => "BeTimestamp"
  | beNumerically => "BeNumerically"

/-- The form in which a call is accepted, as messages show it. -/
def usage : Callee → String
  | beEmpty => "\x7b\x7bBeEmpty()\x7d\x7d"
  | not => "\x7b\x7bNot(BeEmpty())\x7d\x7d"
  | beTimestamp => "\x7b\x7bBeTimestamp(<RFC3339 timestamp>, <milliseconds>)\x7d\x7d"
  | beNumerically => "\x7b\x7bBeNumerically(<==|~|>|>=|<|<=>, <number>[, <number>])\x7d\x7d"

end Callee

inductive Emptiness where
  | empty
  | notEmpty
  deriving DecidableEq, Repr

namespace Emptiness

def holds : Emptiness → Nat → Bool
  | empty, n => n = 0
  | notEmpty, n => 0 < n

theorem holds_notEmpty (n : Nat) : notEmpty.holds n = !empty.holds n := by
  cases n <;> simp [holds]

end Emptiness

inductive Comparison where
  | equal
  | approx
  | greater
  | greaterOrEqual
  | less
  | lessOrEqual
  deriving DecidableEq, Repr

namespace Comparison

def all : List Comparison := [equal, approx, greater, greaterOrEqual, less, lessOrEqual]

def symbol : Comparison → String
  | equal => "=="
  | approx => "~"
  | greater => ">"
  | greaterOrEqual => ">="
  | less => "<"
  | lessOrEqual => "<="

def arity : Comparison → Nat
  | approx => 2
  | _ => 1

end Comparison

end DocMatch
