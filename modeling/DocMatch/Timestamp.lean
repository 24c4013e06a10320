import DocMatch.Bytes

/-!
Timestamps: a date, a time of day and an offset from universal time, written as in
`2020-01-31T23:59:58.25+01:00`. A timestamp is kept in universal time, as days since the epoch, the
second of that day and the nanoseconds past it. A leap second is second 59 with a thousand million
nanoseconds more. Distances between instants are whole numbers of nanoseconds.
-/

namespace DocMatch

inductive TimestampFault where
  | tooShort
  | invalid
  | outOfRange
  | tooLong
  deriving DecidableEq, Repr

def TimestampFault.text : TimestampFault → String
  | tooShort => "premature end of input"
  | invalid => "input contains invalid characters"
  | outOfRange => "input is out of range"
  | tooLong => "trailing input"

structure Timestamp where
  /-- Days since the first of January 1970, in universal time. -/
  day : Int
  /-- The second of that day. -/
  second : Nat
  nanos : Nat
  /-- Seconds by which the local time written is ahead of universal time. -/
  offset : Int
  deriving DecidableEq, Repr

namespace Timestamp

def nanosPerSecond : Nat := 1000000000

def isLeapYear (year : Nat) : Bool :=
  year % 4 = 0 && (year % 100 ≠ 0 || year % 400 = 0)

def daysInMonth (year month : Nat) : Nat :=
  if month = 2 then if isLeapYear year then 29 else 28
  else if month = 4 || month = 6 || month = 9 || month = 11 then 30
  else 31

def daysBeforeYear (year : Nat) : Int :=
  365 * (year : Int) + ((year + 3) / 4 : Nat) - ((year + 99) / 100 : Nat)
    + ((year + 399) / 400 : Nat)

def daysBeforeMonth (year month : Nat) : Nat :=
  (List.range (month - 1)).foldl (fun days m => days + daysInMonth year (m + 1)) 0

def dayNumber (year month day : Nat) : Int :=
  daysBeforeYear year - daysBeforeYear 1970 + daysBeforeMonth year month + (day - 1 : Nat)

def isDate (year month day : Nat) : Bool :=
  1 ≤ month && month ≤ 12 && 1 ≤ day && day ≤ daysInMonth year month

/-- Seconds since the epoch, a leap second counted as the second before it. -/
def unix (t : Timestamp) : Int := t.day * 86400 + t.second

def isLeapSecond (t : Timestamp) : Bool := nanosPerSecond ≤ t.nanos

/-- Nanoseconds from `u` to `t`. A leap second that lies between the two times of day counts. -/
def since (t u : Timestamp) : Int :=
  let leap : Int :=
    if u.second < t.second then if u.isLeapSecond then 1 else 0
    else if t.second < u.second then if t.isLeapSecond then -1 else 0
    else 0
  (t.unix - u.unix + leap) * nanosPerSecond + (t.nanos - u.nanos)

def ofLocal (day : Int) (second nanos : Nat) (offset : Int) : Timestamp :=
  let s : Int := day * 86400 + second - offset
  { day := s.fdiv 86400, second := (s.fmod 86400).toNat, nanos, offset }

def number? (digits : Bytes) : Option Nat :=
  if digits.all Bytes.isDigit then some (Bytes.toNat digits) else none

def orInvalid {α : Type} : Option α → Except TimestampFault α
  | some a => .ok a
  | none => .error .invalid

def readDate (s : Bytes) : Except TimestampFault Int := do
  let year ← orInvalid (number? (s.take 4))
  let month ← orInvalid (number? ((s.drop 5).take 2))
  let day ← orInvalid (number? ((s.drop 8).take 2))
  if s[4]? ≠ some (byte '-') ∨ s[7]? ≠ some (byte '-') then throw .invalid
  if isDate year month day then pure (dayNumber year month day) else throw .outOfRange

def readTime (s : Bytes) : Except TimestampFault (Nat × Nat × Nat) := do
  let hour ← orInvalid (number? (s.take 2))
  let minute ← orInvalid (number? ((s.drop 3).take 2))
  let second ← orInvalid (number? ((s.drop 6).take 2))
  if s[2]? ≠ some (byte ':') ∨ s[5]? ≠ some (byte ':') then throw .invalid
  pure (hour, minute, second)

/-- The nanoseconds of a fraction, where there is one. Digits past the ninth do not count. -/
def readFraction (s : Bytes) : Except TimestampFault (Nat × Bytes) :=
  match s with
  | b :: t =>
    if b = byte '.' then
      let digits := t.takeWhile Bytes.isDigit
      if t.isEmpty then .error .tooShort
      else if digits.isEmpty then .error .invalid
      else
        let kept := digits.take 9
        .ok (Bytes.toNat kept * Nat.pow 10 (9 - kept.length), t.dropWhile Bytes.isDigit)
    else .ok (0, s)
  | [] => .ok (0, s)

def readOffsetSign : Bytes → Except TimestampFault (Bool × Bytes)
  | [] => .error .tooShort
  | b :: t =>
    if b = byte '+' then .ok (false, t)
    else if b = byte '-' then .ok (true, t)
    else
      match b :: t with
      | 0xe2 :: 0x88 :: 0x92 :: t' => .ok (true, t')
      | _ => .error .invalid

/-- Two digits, unless the first of them is refused. -/
def readPair (refuse : UInt8 → Option TimestampFault) :
    Bytes → Except TimestampFault (Nat × Bytes)
  | a :: b :: t =>
    if Bytes.isDigit a && Bytes.isDigit b then
      match refuse a with
      | some fault => .error fault
      | none => .ok (Bytes.toNat [a, b], t)
    else .error .invalid
  | _ => .error .tooShort

def readOffset (s : Bytes) : Except TimestampFault Int := do
  match s with
  | [b] => if b = byte 'Z' ∨ b = byte 'z' then return 0
  | b :: _ => if b = byte 'Z' ∨ b = byte 'z' then throw .tooLong
  | [] => pure ()
  let (negative, s) ← readOffsetSign s
  let (hours, s) ← readPair (fun _ => none) s
  match s with
  | [] => throw .tooShort
  | b :: s =>
    if b ≠ byte ':' then throw .invalid
    let (minutes, s) ← readPair (fun a => if byte '6' ≤ a then some .outOfRange else none) s
    if !s.isEmpty then throw .tooLong
    let seconds : Int := hours * 3600 + minutes * 60
    if 86400 ≤ seconds then throw .outOfRange
    pure (if negative then -seconds else seconds)

def isDateEnd (b : UInt8) : Bool := b = byte 'T' || b = byte 't' || b = byte ' '

def ofBytes (s : Bytes) : Except TimestampFault Timestamp := do
  if s.length < 19 then throw .tooShort
  let day ← readDate (s.take 10)
  if !s[10]?.any isDateEnd then throw .invalid
  let (hour, minute, second) ← readTime ((s.drop 11).take 8)
  let (nanos, rest) ← readFraction (s.drop 19)
  if 23 < hour ∨ 59 < minute ∨ 60 < second then throw .outOfRange
  let offset ← readOffset rest
  let leap := second = 60
  pure (ofLocal day (hour * 3600 + minute * 60 + (if leap then 59 else second))
    (nanos + (if leap then nanosPerSecond else 0)) offset)

def parse (text : String) : Except TimestampFault Timestamp := ofBytes (Bytes.ofString text)

end Timestamp

end DocMatch
