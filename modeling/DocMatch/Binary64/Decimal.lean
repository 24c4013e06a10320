import DocMatch.Binary64.Basic
import DocMatch.Text.Digits

/-!
Reading numbers from decimal text. A decimal denotes `digits · 10^exponent` exactly, and the number
read is the one nearest to it. Exponents are unbounded; where one is so large that the result is
known without computing the power, the power is not computed.
-/

namespace DocMatch.Binary64

def ofDecimal (negative : Bool) (digits : Nat) (exponent : Int) : Binary64 :=
  if digits = 0 then finite negative 0
  else
    match exponent with
    | .ofNat e =>
      if 400 < e then infinite negative else ofUnits negative (digits * Nat.pow 10 e * scale) 1
    | .negSucc e =>
      if 400 + digits.log2 < e then finite negative 0
      else ofUnits negative (digits * scale) (Nat.pow 10 (e + 1))

def takeSign : List Char → Bool × List Char
  | '-' :: t => (true, t)
  | '+' :: t => (false, t)
  | s => (false, s)

def exponent? : List Char → Option Int
  | [] => some 0
  | c :: t =>
    if c = 'e' || c = 'E' then
      let (negative, digits) := takeSign t
      if digits.isEmpty || !digits.all Char.isDigit then none
      else some (if negative then -(Text.digitsToNat digits : Int) else Text.digitsToNat digits)
    else none

def unsigned? (negative : Bool) (s : List Char) : Option Binary64 :=
  let whole := s.takeWhile Char.isDigit
  let (fraction, rest) :=
    match s.dropWhile Char.isDigit with
    | '.' :: t => (t.takeWhile Char.isDigit, t.dropWhile Char.isDigit)
    | t => ([], t)
  if whole.isEmpty && fraction.isEmpty then none
  else (exponent? rest).map fun e =>
    ofDecimal negative (Text.digitsToNat (whole ++ fraction)) (e - fraction.length)

/-- Reads all of `s` as a number. The names of the values that are no numbers may be written in
capitals or not. -/
def parse? (s : List Char) : Option Binary64 :=
  let (negative, t) := takeSign s
  let word := t.map Char.toLower
  if word = "nan".toList then some nan
  else if word = "inf".toList || word = "infinity".toList then some (infinite negative)
  else unsigned? negative t

end DocMatch.Binary64
