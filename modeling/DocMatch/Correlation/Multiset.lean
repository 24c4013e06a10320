import DocMatch.Node

/-!
Arrays of scalars are compared without regard to order. A table counts a node up each time it is
expected and down each time it is met, kind and bytes both counting, and nothing may be left over.
-/

namespace DocMatch.Correlation

/-- How often nodes have been counted. A node without an entry has not been counted at all. -/
abbrev Tally := List (Node × Int)

def Tally.add (amount : Int) : Tally → Node → Tally
  | [], n => [(n, amount)]
  | (m, count) :: rest, n =>
    if m = n then (m, count + amount) :: rest else (m, count) :: add amount rest n

def tally (expected actual : List Node) : Tally :=
  actual.foldl (Tally.add (-1)) (expected.foldl (Tally.add 1) [])

def sameMultiset (expected actual : List Node) : Bool :=
  expected.length = actual.length && (tally expected actual).all (·.2 = 0)

end DocMatch.Correlation
