import DocMatch.Verdict

/-!
Placeholders. `$`, two braces, a name of letters, digits and underscores, and two closing braces
stand for the value of that name; every other byte stands for itself, also where it begins something
that could have become a placeholder. Text is split into segments once, and names, the check for
missing values and the replaced text are all said of the segments, so they cannot disagree.
-/

namespace DocMatch

abbrev Bindings := String → Option String

namespace Bindings

def empty : Bindings := fun _ => none

def ofList (pairs : List (String × String)) : Bindings := fun name => pairs.reverse.lookup name

def orElse (first second : Bindings) : Bindings := fun name => (first name).or (second name)

end Bindings

namespace Substitution

inductive Segment where
  | literal (b : UInt8)
  | placeholder (name : String)
  deriving DecidableEq, Repr

namespace Segment

def name? : Segment → Option String
  | placeholder name => some name
  | literal _ => none

def fill (bindings : Bindings) : Segment → Bytes
  | literal b => [b]
  | placeholder name => Bytes.ofString ((bindings name).getD "")

end Segment

def isNameByte (b : UInt8) : Bool :=
  Bytes.isDigit b || (byte 'a' ≤ b && b ≤ byte 'z') || (byte 'A' ≤ b && b ≤ byte 'Z')
    || b = byte '_'

def nameOf (bytes : Bytes) : String := String.ofList (bytes.map fun b => Char.ofNat b.toNat)

/-- The name in the placeholder that `s` begins with, and what follows the placeholder. -/
def placeholder? : Bytes → Option (String × Bytes)
  | a :: b :: c :: s =>
    if a = byte '$' ∧ b = byte '{' ∧ c = byte '{' then
      let name := s.takeWhile isNameByte
      match s.dropWhile isNameByte with
      | d :: e :: rest =>
        if !name.isEmpty ∧ d = byte '}' ∧ e = byte '}' then some (nameOf name, rest) else none
      | _ => none
    else none
  | _ => none

theorem placeholder?_length_lt {s rest : Bytes} {name : String}
    (h : placeholder? s = some (name, rest)) : rest.length < s.length := by
  unfold placeholder? at h
  split at h
  next a b c t =>
    have ht : (t.dropWhile isNameByte).length ≤ t.length := (List.dropWhile_suffix _).length_le
    split at h
    · dsimp only at h
      split at h
      next d e u hu =>
        rw [hu] at ht
        split at h
        · simp only [Option.some.injEq, Prod.mk.injEq] at h
          rw [← h.2]
          simp only [List.length_cons] at ht ⊢
          omega
        · simp at h
      · simp at h
    · simp at h
  · simp at h

/-- `read` holds the segments before `s`, the last one first. -/
def segmentsOnto (read : List Segment) (s : Bytes) : List Segment :=
  match h : placeholder? s with
  | some (name, rest) =>
    have := placeholder?_length_lt h
    segmentsOnto (.placeholder name :: read) rest
  | none =>
    match s with
    | [] => read.reverse
    | b :: t => segmentsOnto (.literal b :: read) t
termination_by s.length

def segments (s : Bytes) : List Segment := segmentsOnto [] s

theorem segmentsOnto_append (front read : List Segment) (s : Bytes) :
    segmentsOnto (read ++ front) s = front.reverse ++ segmentsOnto read s := by
  fun_induction segmentsOnto read s with
  | case1 read s name rest h _ ih =>
    rw [segmentsOnto]
    split
    next name' rest' h' =>
      obtain ⟨rfl, rfl⟩ : name = name' ∧ rest = rest' := by simpa [h] using h'
      simpa using ih
    next h' => simp [h] at h'
  | case2 read h =>
    rw [segmentsOnto]
    split
    next h' => simp [h] at h'
    next => simp
  | case3 read b t h ih =>
    rw [segmentsOnto]
    split
    next h' => simp [h] at h'
    next => simpa using ih

theorem segments_nil : segments [] = [] := by
  rw [segments, segmentsOnto]
  simp [placeholder?]

theorem segments_of_placeholder {s rest : Bytes} {name : String}
    (h : placeholder? s = some (name, rest)) : segments s = .placeholder name :: segments rest := by
  rw [segments, segmentsOnto]
  split
  next name' rest' h' =>
    obtain ⟨rfl, rfl⟩ : name = name' ∧ rest = rest' := by simpa [h] using h'
    exact segmentsOnto_append [.placeholder name] [] rest
  next h' => simp [h] at h'

theorem segments_of_literal {b : UInt8} {t : Bytes} (h : placeholder? (b :: t) = none) :
    segments (b :: t) = .literal b :: segments t := by
  rw [segments, segmentsOnto]
  split
  next h' => simp [h] at h'
  next => exact segmentsOnto_append [.literal b] [] t

def names (s : Bytes) : List String := ((segments s).filterMap Segment.name?).eraseDups

/-- Every placeholder replaced by its value, or the first name that has none. -/
def replaceAll (bindings : Bindings) (s : Bytes) : Except MatchError Bytes :=
  match (names s).find? fun name => (bindings name).isNone with
  | some name => .error (.undefinedVariable name)
  | none => .ok ((segments s).flatMap (Segment.fill bindings))

def resolutions (bindings : Bindings) (s : Bytes) : List Event :=
  .substituting (names s).length ::
    (names s).filterMap fun name => (bindings name).map fun value => .resolved name ⟨value⟩

def run (bindings : Bindings) (s : Bytes) : Traced (Except Report Bytes) :=
  Traced.noting (.started .substitute)
    (match replaceAll bindings s with
    | .ok text => ⟨resolutions bindings s ++ [.substituted], .ok text⟩
    | .error e =>
      ⟨[.substitutionFailed e.category],
        .error ((Report.ofError e).withOperation Operation.substitute.name)⟩)

end Substitution

end DocMatch
