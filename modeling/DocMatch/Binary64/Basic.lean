/-!
Binary floating point numbers of 64 bits, exactly. Every finite one is a whole number of units of
`2^-1074`, so sums, products and comparisons are integer arithmetic followed by one rounding. A
number of units is a value when its binary digits past the 53rd from the top are all zero; rounding
goes to the nearest such number, a tie to the one whose last kept digit is even.
-/

namespace DocMatch

inductive Binary64 where
  | nan
  | infinite (negative : Bool)
  /-- The number `units · 2^-1074` with its sign, which a zero has too. -/
  | finite (negative : Bool) (units : Nat)
  deriving DecidableEq, Repr

namespace Binary64

def scale : Nat := 1 <<< 1074

def limit : Nat := 1 <<< 2098

/-- How many binary digits a number of units has beyond the 53 that are kept. -/
def excess (units : Nat) : Nat := units.log2 + 1 - 53

/-- The whole number nearest to `num / den`, of two equally near the even one. -/
def roundQuotient (num den : Nat) : Nat :=
  let q := num / den
  let r := num % den
  if 2 * r < den then q else if den < 2 * r then q + 1 else q + q % 2

def roundUnits (num den : Nat) : Nat :=
  let e := excess (num / den)
  roundQuotient num (den <<< e) <<< e

def ofUnits (negative : Bool) (num den : Nat) : Binary64 :=
  let units := roundUnits num den
  if units < limit then finite negative units else infinite negative

def ofNat (n : Nat) : Binary64 := ofUnits false (n * scale) 1

def zero : Binary64 := finite false 0

def one : Binary64 := finite false scale

def epsilon : Binary64 := finite false (1 <<< 1022)

def isFinite : Binary64 → Bool
  | finite .. => true
  | _ => false

def signed (negative : Bool) (units : Nat) : Int := if negative then -units else units

def neg : Binary64 → Binary64
  | nan => nan
  | infinite s => infinite !s
  | finite s u => finite (!s) u

def abs : Binary64 → Binary64
  | nan => nan
  | infinite _ => infinite false
  | finite _ u => finite false u

def add : Binary64 → Binary64 → Binary64
  | nan, _ => nan
  | _, nan => nan
  | infinite s, infinite s' => if s = s' then infinite s else nan
  | infinite s, finite .. => infinite s
  | finite .., infinite s => infinite s
  | finite s u, finite s' u' =>
    let sum := signed s u + signed s' u'
    if sum = 0 then finite (s && s') 0 else ofUnits (sum < 0) sum.natAbs 1

def sub (x y : Binary64) : Binary64 := add x y.neg

def mul : Binary64 → Binary64 → Binary64
  | nan, _ => nan
  | _, nan => nan
  | infinite s, infinite s' => infinite (s != s')
  | infinite s, finite s' u => if u = 0 then nan else infinite (s != s')
  | finite s u, infinite s' => if u = 0 then nan else infinite (s != s')
  | finite s u, finite s' u' => ofUnits (s != s') (u * u') scale

def div : Binary64 → Binary64 → Binary64
  | nan, _ => nan
  | _, nan => nan
  | infinite _, infinite _ => nan
  | infinite s, finite s' _ => infinite (s != s')
  | finite s _, infinite s' => finite (s != s') 0
  | finite s u, finite s' u' =>
    if u' = 0 then if u = 0 then nan else infinite (s != s')
    else ofUnits (s != s') (u * scale) u'

def le : Binary64 → Binary64 → Bool
  | nan, _ => false
  | _, nan => false
  | infinite true, _ => true
  | _, infinite false => true
  | infinite false, _ => false
  | _, infinite true => false
  | finite s u, finite s' u' => signed s u ≤ signed s' u'

def eq (x y : Binary64) : Bool := x.le y && y.le x

def lt (x y : Binary64) : Bool := x.le y && !y.le x

def max : Binary64 → Binary64 → Binary64
  | nan, y => y
  | x, nan => x
  | x, y => if x.le y then y else x

/-- The interchange form: sign, eleven exponent bits, and the 52 low bits of the significand. -/
def toBits : Binary64 → Nat
  | nan => 0x7ff8000000000000
  | infinite s => (if s then 1 <<< 63 else 0) + 0x7ff0000000000000
  | finite s u => (if s then 1 <<< 63 else 0) + (excess u <<< 52) + (u >>> excess u)

theorem le_nan (x : Binary64) : le x nan = false := by cases x <;> rfl

theorem le_finite (s s' : Bool) (u u' : Nat) :
    le (finite s u) (finite s' u') = decide (signed s u ≤ signed s' u') := rfl

theorem le_refl {x : Binary64} (h : x ≠ nan) : le x x = true := by
  cases x with
  | nan => exact absurd rfl h
  | infinite s => cases s <;> rfl
  | finite s u => simp [le_finite]

end Binary64

end DocMatch
