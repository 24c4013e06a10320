import DocMatch.Bytes

/-!
Bytes as UTF-8 text. One step reads a character off the front of the bytes, or finds that they
begin none; everything else is said through the sequence of those steps. Bytes that begin no
character are taken together for as long as they could still have become one, which fixes how many
replacement characters a spoilt run shows as.
-/

namespace DocMatch.Utf8

def isTail (b : UInt8) : Bool := 0x80 ≤ b && b ≤ 0xbf

/-- The second byte is narrowed where a longer spelling, a surrogate or a number past the last
character would begin. -/
def isSecond (lead b : UInt8) : Bool :=
  if lead = 0xe0 then 0xa0 ≤ b && b ≤ 0xbf
  else if lead = 0xed then 0x80 ≤ b && b ≤ 0x9f
  else if lead = 0xf0 then 0x90 ≤ b && b ≤ 0xbf
  else if lead = 0xf4 then 0x80 ≤ b && b ≤ 0x8f
  else isTail b

def two (a : UInt8) : Bytes → Option Char × Bytes
  | b :: t =>
    if isTail b then (some (Char.ofNat (a.toNat % 32 * 64 + b.toNat % 64)), t) else (none, b :: t)
  | [] => (none, [])

def three (a : UInt8) : Bytes → Option Char × Bytes
  | b :: c :: t =>
    if isSecond a b then
      if isTail c then
        (some (Char.ofNat (a.toNat % 16 * 4096 + b.toNat % 64 * 64 + c.toNat % 64)), t)
      else (none, c :: t)
    else (none, b :: c :: t)
  | [b] => (none, if isSecond a b then [] else [b])
  | [] => (none, [])

def four (a : UInt8) : Bytes → Option Char × Bytes
  | b :: c :: d :: t =>
    if isSecond a b then
      if isTail c then
        if isTail d then
          (some (Char.ofNat (a.toNat % 8 * 262144 + b.toNat % 64 * 4096 + c.toNat % 64 * 64
            + d.toNat % 64)), t)
        else (none, d :: t)
      else (none, c :: d :: t)
    else (none, b :: c :: d :: t)
  | [b, c] => (none, if isSecond a b then if isTail c then [] else [c] else [b, c])
  | [b] => (none, if isSecond a b then [] else [b])
  | [] => (none, [])

def step (a : UInt8) (t : Bytes) : Option Char × Bytes :=
  if a < 0x80 then (some (Char.ofNat a.toNat), t)
  else if 0xc2 ≤ a && a ≤ 0xdf then two a t
  else if 0xe0 ≤ a && a ≤ 0xef then three a t
  else if 0xf0 ≤ a && a ≤ 0xf4 then four a t
  else (none, t)

theorem two_length_le (a : UInt8) (t : Bytes) : (two a t).2.length ≤ t.length := by
  fun_cases two a t <;> simp

theorem three_length_le (a : UInt8) (t : Bytes) : (three a t).2.length ≤ t.length := by
  fun_cases three a t <;> grind

theorem four_length_le (a : UInt8) (t : Bytes) : (four a t).2.length ≤ t.length := by
  fun_cases four a t <;> grind

theorem step_length_le (a : UInt8) (t : Bytes) : (step a t).2.length ≤ t.length := by
  unfold step
  repeat' split
  · exact Nat.le_refl _
  · exact two_length_le a t
  · exact three_length_le a t
  · exact four_length_le a t
  · exact Nat.le_refl _

def scalarsOnto (read : List (Option Char)) : Bytes → List (Option Char)
  | [] => read.reverse
  | a :: t => scalarsOnto ((step a t).1 :: read) (step a t).2
termination_by s => s.length
decreasing_by exact Nat.lt_succ_of_le (step_length_le a t)

/-- The characters of `s` in order, `none` for each run of bytes that forms no character. -/
def scalars (s : Bytes) : List (Option Char) := scalarsOnto [] s

theorem scalarsOnto_append (front read : List (Option Char)) (s : Bytes) :
    scalarsOnto (read ++ front) s = front.reverse ++ scalarsOnto read s := by
  fun_induction scalarsOnto read s with
  | case1 read => simp [scalarsOnto]
  | case2 read a t ih => rw [scalarsOnto, ← ih, List.cons_append]

@[simp] theorem scalars_nil : scalars [] = [] := by simp [scalars, scalarsOnto]

theorem scalars_cons (a : UInt8) (t : Bytes) :
    scalars (a :: t) = (step a t).1 :: scalars (step a t).2 := by
  rw [scalars, scalarsOnto]
  exact scalarsOnto_append [(step a t).1] [] _

def text? (s : Bytes) : Option String := ((scalars s).mapM id).map String.ofList

def lossy (s : Bytes) : String := String.ofList ((scalars s).map (·.getD '\uFFFD'))

def validLength (s : Bytes) : Nat :=
  ((scalars s).takeWhile Option.isSome).foldr (fun c n => c.elim 0 Char.utf8Size + n) 0

def isValid (s : Bytes) : Bool := (scalars s).all Option.isSome

end DocMatch.Utf8
