import DocMatch.Json.Skip

/-!
The fault raised where a value has another shape than the one wanted. The message shows a scalar,
so that is read first, and a malformed one is reported as such. A number is shown as an integer if
it is written as one and fits a 64-bit word. Any other number is shown through one scaling: its
leading digits, as many as fit a word, times a power of ten, each step rounded. That differs from
the nearest number in the last digits at times, and is what the message is defined to show.
-/

namespace DocMatch.Json

def wordLimit : Nat := 1 <<< 64

def takeDigits (n : Nat) : Bytes → Nat × Bytes
  | [] => (n, [])
  | b :: t =>
    let n' := n * 10 + Bytes.digitValue b
    if n' < wordLimit then takeDigits n' t else (n, b :: t)

def powerOfTen (n : Nat) : Binary64 := .ofDecimal false 1 n

def divideByPower (x : Binary64) (n : Nat) : Binary64 :=
  if n ≤ 308 then x.div (powerOfTen n)
  else if x = .zero then x
  else divideByPower (x.div (powerOfTen 308)) (n - 308)
termination_by n
decreasing_by omega

def scaled? (digits : Nat) (exponent : Int) : Option Binary64 :=
  let x := Binary64.ofNat digits
  match exponent with
  | .ofNat e =>
    if e ≤ 308 then
      let y := x.mul (powerOfTen e)
      if y.isFinite then some y else none
    else if digits = 0 then some x
    else none
  | .negSucc e => some (divideByPower x (e + 1))

/-- How many digits of an exponent have been read when it leaves the range of exponents, if it
does. -/
def exponentOverflow? (n read : Nat) : Bytes → Option Nat
  | [] => none
  | b :: t =>
    let n' := n * 10 + Bytes.digitValue b
    if n' < 1 <<< 31 then exponentOverflow? n' (read + 1) t else some (read + 1)

def NumberLiteral.isWhole (literal : NumberLiteral) : Bool :=
  literal.fraction.isNone && literal.exponent.isNone

def NumberLiteral.leading (literal : NumberLiteral) : Nat × Int :=
  let (n, extra) := takeDigits 0 literal.whole
  let digits := literal.fraction.getD []
  let (n', ignored) := takeDigits n digits
  (n', (extra.length : Int) - (digits.length - ignored.length))

def NumberLiteral.found (literal : NumberLiteral) (rest : Bytes) : Except Fault Found :=
  let (n, power) := literal.leading
  let real (x : Binary64) : Found := .real (if literal.negative then x.neg else x)
  let scale (e : Int) : Except Fault Found :=
    match scaled? n e with
    | some x => .ok (real x)
    | none => .error (.here .numberOutOfRange rest)
  match literal.exponent with
  | none =>
    if literal.isWhole && power = 0 then
      if !literal.negative then .ok (.integer n)
      else if n = 0 || (1 <<< 63) < n then .ok (real (.ofNat n))
      else .ok (.integer (-n))
    else scale power
  | some (negative, digits) =>
    match exponentOverflow? 0 0 digits with
    | some read =>
      if n ≠ 0 && !negative then
        .error ⟨.numberOutOfRange, rest.length + (digits.length - read)⟩
      else .ok (real .zero)
    | none =>
      let e : Int := Bytes.toNat digits
      scale (power + (if negative then -e else e))

/-- What `s` begins with, and the bytes after as much of it as is read. -/
def readFound (s : Bytes) : Except Fault (Found × Bytes) :=
  match s with
  | [] => .error (.ahead .endInValue [])
  | b :: t =>
    let r := Rest.tail b t
    if b = byte '"' then (readString r).map fun (text, q) => (.string text, q.bytes)
    else if b = byte 't' then
      (skipWord (Bytes.ofString "rue") r).map fun q => (.boolean true, q.bytes)
    else if b = byte 'f' then
      (skipWord (Bytes.ofString "alse") r).map fun q => (.boolean false, q.bytes)
    else if b = byte 'n' then (skipWord (Bytes.ofString "ull") r).map fun q => (.null, q.bytes)
    else if b = byte '-' ∨ Bytes.isDigit b then do
      let (literal, q) ← readNumber .endInValue (b :: t)
      let found ← literal.found q.bytes
      pure (found, q.bytes)
    else if b = byte '[' then .ok (.sequence, b :: t)
    else if b = byte '{' then .ok (.mapping, b :: t)
    else .error (.ahead .expectedValue (b :: t))

def misfit (wanted : Shape) (s : Bytes) : Fault :=
  match readFound s with
  | .ok (found, rest) => .here (.wrongShape found wanted) rest
  | .error fault => fault

end DocMatch.Json
