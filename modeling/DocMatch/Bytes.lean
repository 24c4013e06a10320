/-!
Raw text as bytes. A document is never turned into a tree: every part of it is a run of its own
bytes, and a reader takes some bytes off the front and hands on the rest. `Rest s` is such a rest
with the number of bytes already taken, which is never zero, so a reader that calls itself on a
rest of its input always comes to an end.
-/

namespace DocMatch

abbrev Bytes := List UInt8

abbrev byte (c : Char) : UInt8 := c.toUInt8

namespace Bytes

def ofString (s : String) : Bytes := s.toList.flatMap String.utf8EncodeChar

/-- The white space allowed between the tokens of a document. -/
def isBlank (b : UInt8) : Bool :=
  b == byte ' ' || b == byte '\n' || b == byte '\t' || b == byte '\r'

def isSpace (b : UInt8) : Bool := isBlank b || b == 0x0c

def isDigit (b : UInt8) : Bool := byte '0' ≤ b && b ≤ byte '9'

def digitValue (b : UInt8) : Nat := b.toNat - (byte '0').toNat

def toNat (digits : Bytes) : Nat :=
  digits.foldl (fun n b => n * 10 + digitValue b) 0

theorem toNat_nil : toNat [] = 0 := rfl

def hexValue? (b : UInt8) : Option Nat :=
  if isDigit b then some (digitValue b)
  else if byte 'a' ≤ b && b ≤ byte 'f' then some (b.toNat - (byte 'a').toNat + 10)
  else if byte 'A' ≤ b && b ≤ byte 'F' then some (b.toNat - (byte 'A').toNat + 10)
  else none

end Bytes

/-- What is left of `s` once `taken` of its bytes, at least one, have been read. -/
structure Rest (s : Bytes) where
  taken : Nat
  bytes : Bytes
  drop_eq : s.drop taken = bytes
  taken_pos : 0 < taken
  taken_le : taken ≤ s.length

namespace Rest

variable {s : Bytes}

def span (r : Rest s) : Bytes := s.take r.taken

theorem span_append_bytes (r : Rest s) : r.span ++ r.bytes = s := by
  rw [span, ← r.drop_eq, List.take_append_drop]

theorem taken_add_length (r : Rest s) : r.taken + r.bytes.length = s.length := by
  have h := r.taken_le
  rw [← r.drop_eq, List.length_drop]
  omega

theorem length_lt (r : Rest s) : r.bytes.length < s.length := by
  have h := r.taken_add_length
  have h' := r.taken_pos
  omega

theorem bytes_suffix (r : Rest s) : r.bytes <:+ s := r.drop_eq ▸ List.drop_suffix ..

theorem span_prefix (r : Rest s) : r.span <+: s := List.take_prefix ..

def tail (b : UInt8) (t : Bytes) : Rest (b :: t) where
  taken := 1
  bytes := t
  drop_eq := rfl
  taken_pos := by decide
  taken_le := by simp

theorem tail_bytes (b : UInt8) (t : Bytes) : (tail b t).bytes = t := rfl

def andThen (r : Rest s) (q : Rest r.bytes) : Rest s where
  taken := r.taken + q.taken
  bytes := q.bytes
  drop_eq := by rw [← List.drop_drop, r.drop_eq, q.drop_eq]
  taken_pos := Nat.add_pos_left r.taken_pos _
  taken_le := by
    have h := r.taken_add_length
    have h' := q.taken_le
    omega

theorem andThen_bytes (r : Rest s) (q : Rest r.bytes) : (r.andThen q).bytes = q.bytes := rfl

theorem andThen_length_lt (r : Rest s) (q : Rest r.bytes) :
    (r.andThen q).bytes.length < r.bytes.length := q.length_lt

def next (r : Rest s) {b : UInt8} {t : Bytes} (h : r.bytes = b :: t) : Rest s where
  taken := r.taken + 1
  bytes := t
  drop_eq := by rw [← List.drop_drop, r.drop_eq, h, List.drop_succ_cons, List.drop_zero]
  taken_pos := Nat.succ_pos _
  taken_le := by
    have h' := r.taken_add_length
    rw [h, List.length_cons] at h'
    omega

theorem next_bytes (r : Rest s) {b : UInt8} {t : Bytes} (h : r.bytes = b :: t) :
    (r.next h).bytes = t := rfl

theorem next_length_lt (r : Rest s) {b : UInt8} {t : Bytes} (h : r.bytes = b :: t) :
    (r.next h).bytes.length < r.bytes.length := by
  rw [next_bytes, h]
  exact Nat.lt_succ_self _

def dropWhile (p : UInt8 → Bool) (r : Rest s) : Rest s where
  taken := r.taken + (r.bytes.takeWhile p).length
  bytes := r.bytes.dropWhile p
  drop_eq := by
    rw [← List.drop_drop, r.drop_eq]
    have h := List.takeWhile_append_dropWhile (p := p) (l := r.bytes)
    exact (congrArg (List.drop _) h).symm.trans (List.drop_left ..)
  taken_pos := Nat.add_pos_left r.taken_pos _
  taken_le := by
    have h := r.taken_add_length
    have h' := congrArg List.length (List.takeWhile_append_dropWhile (p := p) (l := r.bytes))
    rw [List.length_append] at h'
    omega

theorem dropWhile_bytes (p : UInt8 → Bool) (r : Rest s) :
    (r.dropWhile p).bytes = r.bytes.dropWhile p := rfl

theorem dropWhile_length_le (p : UInt8 → Bool) (r : Rest s) :
    (r.dropWhile p).bytes.length ≤ r.bytes.length :=
  (List.dropWhile_suffix p).length_le

def skipBlanks (r : Rest s) : Rest s := r.dropWhile Bytes.isBlank

theorem skipBlanks_length_le (r : Rest s) : r.skipBlanks.bytes.length ≤ r.bytes.length :=
  r.dropWhile_length_le _

theorem skipBlanks_next_lt (r : Rest s) (q : Rest r.bytes) {b : UInt8} {t : Bytes}
    (h : (r.andThen q).skipBlanks.bytes = b :: t) :
    ((r.andThen q).skipBlanks.next h).skipBlanks.bytes.length < r.bytes.length := by
  have h₁ := (r.andThen q).skipBlanks_length_le
  have h₂ := r.andThen_length_lt q
  have h₃ := (r.andThen q).skipBlanks.next_length_lt h
  have h₄ := ((r.andThen q).skipBlanks.next h).skipBlanks_length_le
  omega

end Rest

end DocMatch
