import DocMatch.Json.Fault

/-!
Number literals, taken apart into their digits. A literal is an optional minus sign, a whole part
without superfluous zeros, and optionally a fraction and an exponent. The cause reported when the
document ends where a digit is due is left to the caller.
-/

namespace DocMatch.Json

structure NumberLiteral where
  negative : Bool
  whole : Bytes
  fraction : Option Bytes
  /-- Whether the exponent is negative, and its digits. -/
  exponent : Option (Bool × Bytes)
  deriving DecidableEq, Repr

variable (atEnd : Cause)

def readWhole : (s : Bytes) → Except Fault (Bytes × Rest s)
  | [] => .error (.here atEnd [])
  | b :: t =>
    if b = byte '0' then
      if (t.head?.any Bytes.isDigit) then .error (.ahead .invalidNumber t)
      else .ok ([b], .tail b t)
    else if Bytes.isDigit b then
      .ok (b :: t.takeWhile Bytes.isDigit, (Rest.tail b t).dropWhile Bytes.isDigit)
    else .error (.here .invalidNumber t)

def readFraction {s : Bytes} (r : Rest s) : Except Fault (Option Bytes × Rest s) :=
  match h : r.bytes with
  | [] => .ok (none, r)
  | b :: t =>
    if b = byte '.' then
      if t.isEmpty then .error (.ahead atEnd [])
      else
        let digits := t.takeWhile Bytes.isDigit
        if digits.isEmpty then .error (.ahead .invalidNumber t)
        else .ok (some digits, (r.next h).dropWhile Bytes.isDigit)
    else .ok (none, r)

def readSign {s : Bytes} (r : Rest s) : Bool × Rest s :=
  match h : r.bytes with
  | [] => (false, r)
  | b :: _ =>
    if b = byte '-' then (true, r.next h)
    else if b = byte '+' then (false, r.next h)
    else (false, r)

def readExponent {s : Bytes} (r : Rest s) : Except Fault (Option (Bool × Bytes) × Rest s) :=
  match h : r.bytes with
  | [] => .ok (none, r)
  | b :: _ =>
    if b = byte 'e' ∨ b = byte 'E' then
      let (negative, q) := readSign (r.next h)
      match q.bytes with
      | [] => .error (.here atEnd [])
      | c :: u =>
        if Bytes.isDigit c then
          .ok (some (negative, c :: u.takeWhile Bytes.isDigit), q.dropWhile Bytes.isDigit)
        else .error (.here .invalidNumber u)
    else .ok (none, r)

def readUnsigned (s : Bytes) : Except Fault (NumberLiteral × Rest s) := do
  let (whole, r) ← readWhole atEnd s
  let (fraction, r) ← readFraction atEnd r
  let (exponent, r) ← readExponent atEnd r
  pure ({ negative := false, whole, fraction, exponent }, r)

def readNumber : (s : Bytes) → Except Fault (NumberLiteral × Rest s)
  | [] => .error (.here atEnd [])
  | b :: t =>
    if b = byte '-' then do
      let (literal, q) ← readUnsigned atEnd t
      pure ({ literal with negative := true }, (Rest.tail b t).andThen q)
    else readUnsigned atEnd (b :: t)

end DocMatch.Json
