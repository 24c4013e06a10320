import DocMatch.Binary64.Decimal

/-!
Writing numbers. The digits written are the fewest that read back as the number, and of those the
nearest to it. On a grid of decimals with a given number of digits only the two neighbours of the
number need to be tried: where any point of the grid reads back, one of these does. The two ways of
writing differ in where the point and an exponent go, and in which of two equally near decimals
they take.
-/

namespace DocMatch.Binary64

/-- Which of two equally near decimals is taken. -/
inductive Tie where
  | even
  | up
  deriving DecidableEq, Repr

def roundsTo (units quarters scaledBy : Nat) : Bool :=
  let step := 1 <<< excess units
  let below := if units = 1 <<< units.log2 && 1 < step then step else 2 * step
  let low := (4 * units - below) * scaledBy
  let high := (4 * units + 2 * step) * scaledBy
  if units / step % 2 = 0 then low ≤ quarters && quarters ≤ high
  else low < quarters && quarters < high

def Tie.takesUpper (tie : Tie) (low past grid : Nat) : Bool :=
  if 2 * past = grid then
    match tie with
    | even => low % 2 = 1
    | up => true
  else grid < 2 * past

/-- The decimal of `count` digits nearest to the number, if it reads back, as a whole number and a
power of ten. The number is `5^1074 · units` at the power `-1074`. -/
def nearestDecimal? (tie : Tie) (units count : Nat) : Option (Nat × Int) :=
  let fives := Nat.pow 5 1074
  let exact := units * fives
  let drop := (Nat.toDigits 10 exact).length - count
  let grid := Nat.pow 10 drop
  let low := exact / grid
  let reads (n : Nat) : Bool := roundsTo units (4 * (n * grid)) fives
  let upper := tie.takesUpper low (exact % grid) grid
  let near := if upper then low + 1 else low
  let far := if upper then low else low + 1
  let power : Int := drop - 1074
  if reads near then some (near, power)
  else if reads far then some (far, power)
  else none

def dropZeros (n : Nat) (power : Int) : Nat × Int :=
  if n ≠ 0 ∧ n % 10 = 0 then dropZeros (n / 10) (power + 1) else (n, power)
termination_by n
decreasing_by omega

/-- The fewest digits, as a whole number that does not end in zero, and their power of ten.
Seventeen digits always suffice. -/
def shortest (tie : Tie) (units : Nat) : Nat × Int :=
  if units = 0 then (0, 0)
  else
    let found := (List.range 17).findSome? fun i => nearestDecimal? tie units (i + 1)
    let (n, e) := found.getD (units * Nat.pow 5 1074, -1074)
    dropZeros n e

def placePoint (digits : String) (whole : Int) : String × String :=
  let n : Int := digits.length
  if n ≤ whole then (digits ++ "".pushn '0' (whole - n).toNat, "")
  else if 0 < whole then (String.ofList (digits.toList.take whole.toNat),
    String.ofList (digits.toList.drop whole.toNat))
  else ("0", "".pushn '0' (-whole).toNat ++ digits)

def toPlain : Binary64 → String
  | nan => "NaN"
  | infinite s => if s then "-inf" else "inf"
  | finite s u =>
    let (n, e) := shortest .up u
    let (whole, fraction) := placePoint (toString n) (e + (toString n).length)
    (if s then "-" else "") ++ whole ++ (if fraction.isEmpty then "" else "." ++ fraction)

def toScientific : Binary64 → String
  | nan => "NaN"
  | infinite s => if s then "-inf" else "inf"
  | finite s u =>
    let (n, e) := shortest .even u
    let digits := toString n
    let point : Int := e + digits.length
    let text :=
      if -5 < point && point ≤ 16 || u = 0 then
        let (whole, fraction) := placePoint digits point
        whole ++ "." ++ (if fraction.isEmpty then "0" else fraction)
      else
        let first := String.ofList (digits.toList.take 1)
        let more := String.ofList (digits.toList.drop 1)
        first ++ (if more.isEmpty then "" else "." ++ more) ++ "e"
          ++ (if point - 1 < 0 then "-" else "+") ++ toString (point - 1).natAbs
    (if s then "-" else "") ++ text

end DocMatch.Binary64
