import DocMatch.Json.Fault
import DocMatch.Utf8

/-!
String literals. Both ways of reading one, passing over it and decoding it, take the same pieces
off the front: a byte that stands for itself or is spelt by a short escape, a `\u` escape, a control
byte, which neither way accepts, or the closing quotation mark. Passing over a literal does not look
at what `\u` escapes denote; decoding it demands that surrogates come in pairs and that the bytes
are UTF-8.
-/

namespace DocMatch.Json

inductive Piece where
  | close
  | plain (b : UInt8)
  | unit (n : Nat)
  | control
  deriving DecidableEq, Repr

def escaped? (b : UInt8) : Option UInt8 :=
  if b = byte '"' then some b
  else if b = byte '\\' then some b
  else if b = byte '/' then some b
  else if b = byte 'b' then some 0x08
  else if b = byte 'f' then some 0x0c
  else if b = byte 'n' then some 0x0a
  else if b = byte 'r' then some 0x0d
  else if b = byte 't' then some 0x09
  else none

def hexUnit? (a b c d : UInt8) : Option Nat := do
  let a ← Bytes.hexValue? a
  let b ← Bytes.hexValue? b
  let c ← Bytes.hexValue? c
  let d ← Bytes.hexValue? d
  pure (((a * 16 + b) * 16 + c) * 16 + d)

def readUnit {s : Bytes} (r : Rest s) : Except Fault (Nat × Rest s) :=
  match h : r.bytes with
  | a :: b :: c :: d :: t =>
    let after := (((r.next h).next rfl).next rfl).next rfl
    match hexUnit? a b c d with
    | some n => .ok (n, after)
    | none => .error (.here .invalidEscape t)
  | _ => .error (.here .endInString [])

def readEscape {s : Bytes} (r : Rest s) : Except Fault (Piece × Rest s) :=
  match h : r.bytes with
  | [] => .error (.here .endInString [])
  | e :: t =>
    if e = byte 'u' then
      match readUnit (r.next h) with
      | .ok (n, q) => .ok (.unit n, q)
      | .error f => .error f
    else
      match escaped? e with
      | some b => .ok (.plain b, r.next h)
      | none => .error (.here .invalidEscape t)

def nextPiece : (s : Bytes) → Except Fault (Piece × Rest s)
  | [] => .error (.here .endInString [])
  | b :: t =>
    if b = byte '"' then .ok (.close, .tail b t)
    else if b = byte '\\' then readEscape (.tail b t)
    else if b < 0x20 then .ok (.control, .tail b t)
    else .ok (.plain b, .tail b t)

def closeString {s : Bytes} (r : Rest s) : Except Fault (Rest s) :=
  match nextPiece r.bytes with
  | .error f => .error f
  | .ok (.close, q) => .ok (r.andThen q)
  | .ok (.control, _) => .error (.here .controlCharacter r.bytes)
  | .ok (_, q) => closeString (r.andThen q)
termination_by r.bytes.length
decreasing_by exact r.andThen_length_lt q

def isHighSurrogate (n : Nat) : Bool := 0xd800 ≤ n && n ≤ 0xdbff

def isLowSurrogate (n : Nat) : Bool := 0xdc00 ≤ n && n ≤ 0xdfff

def takeEscapeByte {s : Bytes} (b : UInt8) (r : Rest s) : Except Fault (Rest s) :=
  match h : r.bytes with
  | [] => .error (.here .endInString [])
  | c :: t => if c = b then .ok (r.next h) else .error (.here .endOfHexEscape t)

def readLowSurrogate {s : Bytes} (r : Rest s) : Except Fault (Nat × Rest s) := do
  let r ← takeEscapeByte (byte '\\') r
  let r ← takeEscapeByte (byte 'u') r
  let (low, r) ← readUnit r
  if isLowSurrogate low then pure (low, r) else throw (.here .loneSurrogate r.bytes)

/-- The character that an escape denotes, together with the low surrogate where one is due. -/
def readScalar {s : Bytes} (n : Nat) (r : Rest s) : Except Fault (Char × Rest s) :=
  if isLowSurrogate n then .error (.here .loneSurrogate r.bytes)
  else if isHighSurrogate n then do
    let (low, r) ← readLowSurrogate r
    pure (Char.ofNat (0x10000 + (n - 0xd800) * 0x400 + (low - 0xdc00)), r)
  else .ok (Char.ofNat n, r)

/-- Decodes the rest of a literal. `read` holds the bytes decoded so far, the last one first. -/
def decodeBytes {s : Bytes} (read : Bytes) (r : Rest s) : Except Fault (Bytes × Rest s) :=
  match nextPiece r.bytes with
  | .error f => .error f
  | .ok (.close, q) => .ok (read.reverse, r.andThen q)
  | .ok (.control, q) => .error (.here .controlCharacter q.bytes)
  | .ok (.plain b, q) => decodeBytes (b :: read) (r.andThen q)
  | .ok (.unit n, q) =>
    match readScalar n q with
    | .error f => .error f
    | .ok (c, q') => decodeBytes ((String.utf8EncodeChar c).reverse ++ read) (r.andThen q')
termination_by r.bytes.length
decreasing_by
  · exact r.andThen_length_lt q
  · exact r.andThen_length_lt q'

/-- Decodes the rest of a literal into text. Where the bytes are no text, the place named lies as
many bytes back as there are from the first byte that belongs to no character. -/
def readString {s : Bytes} (r : Rest s) : Except Fault (String × Rest s) := do
  let (bytes, q) ← decodeBytes [] r
  match Utf8.text? bytes with
  | some text => pure (text, q)
  | none =>
    throw ⟨.invalidUnicode, q.bytes.length + (bytes.length - Utf8.validLength bytes)⟩

/-- The bytes of a member's name as a written document spells it: only what has to be escaped is. -/
def escapeByte (b : UInt8) : Bytes :=
  if b = byte '"' then [byte '\\', byte '"']
  else if b = byte '\\' then [byte '\\', byte '\\']
  else if b = 0x08 then [byte '\\', byte 'b']
  else if b = 0x0c then [byte '\\', byte 'f']
  else if b = 0x0a then [byte '\\', byte 'n']
  else if b = 0x0d then [byte '\\', byte 'r']
  else if b = 0x09 then [byte '\\', byte 't']
  else if b < 0x20 then
    [byte '\\', byte 'u', byte '0', byte '0', b / 16 + byte '0',
      if b % 16 < 10 then b % 16 + byte '0' else b % 16 - 10 + byte 'a']
  else [b]

def writeString (text : String) : Bytes :=
  byte '"' :: (Bytes.ofString text).flatMap escapeByte ++ [byte '"']

end DocMatch.Json
