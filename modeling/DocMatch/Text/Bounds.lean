/-!
Properties of characters as tables. A table lists, in ascending order, the numbers at which the
property begins or ends.
-/

namespace DocMatch.Text

/-- Whether a property holds of a character: it has begun once more than it has ended. -/
def holdsAt (bounds : List Nat) (c : Char) : Bool :=
  (bounds.takeWhile (· ≤ c.toNat)).length % 2 = 1

theorem holdsAt_nil (c : Char) : holdsAt [] c = false := rfl

theorem holdsAt_cons {bound : Nat} {bounds : List Nat} {c : Char} (h : bound ≤ c.toNat) :
    holdsAt (bound :: bounds) c = !holdsAt bounds c := by
  simp only [holdsAt, List.takeWhile_cons, h, decide_true, if_true, List.length_cons]
  rcases Nat.mod_two_eq_zero_or_one (bounds.takeWhile (· ≤ c.toNat)).length with hm | hm <;>
    simp [Nat.add_mod, hm]

end DocMatch.Text
