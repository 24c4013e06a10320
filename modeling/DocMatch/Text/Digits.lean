/-!
Decimal digits as text. Leading zeros do not count, and there is no limit to the number of digits.
-/

namespace DocMatch.Text

def digitsToNat (digits : List Char) : Nat :=
  digits.foldl (fun n c => n * 10 + (c.toNat - '0'.toNat)) 0

theorem digitsToNat_nil : digitsToNat [] = 0 := rfl

theorem digitsToNat_concat (digits : List Char) (c : Char) :
    digitsToNat (digits ++ [c]) = digitsToNat digits * 10 + (c.toNat - '0'.toNat) := by
  simp [digitsToNat]

end DocMatch.Text
