import DocMatch.Error
import DocMatch.Expression.NumberTest

/-!
Expressions in expected texts. A text is an expression only if it opens with two braces, the name of
a known function and a parenthesis; it must then be a complete call of that function. Every other
text stands for itself.
-/

namespace DocMatch

inductive Expression where
  | emptiness (demand : Emptiness)
  /-- Within `delta` milliseconds of an instant, before or after it. -/
  | timestamp (instant : Timestamp) (delta : Nat)
  | number (test : NumberTest)
  deriving DecidableEq, Repr

namespace Expression

def callee : Expression → Callee
  | emptiness .empty => .beEmpty
  | emptiness .notEmpty => .not
  | timestamp .. => .beTimestamp
  | number _ => .beNumerically

def isBlank (c : Char) : Bool := c = ' ' || c = '\t' || c = '\r' || c = '\n'

def dropBlanks (s : List Char) : List Char := s.dropWhile isBlank

def dropWord? : List Char → List Char → Option (List Char)
  | [], s => some s
  | w :: word, c :: s => if c = w then dropWord? word s else none
  | _ :: _, [] => none

theorem dropWord?_eq_some_iff {word s t : List Char} :
    dropWord? word s = some t ↔ s = word ++ t := by
  induction word generalizing s with
  | nil => simp [dropWord?]
  | cons w word ih =>
    cases s with
    | nil => simp [dropWord?]
    | cons c s => by_cases h : c = w <;> simp [dropWord?, h, ih]

def opening (f : Callee) : List Char := ['{', '{'] ++ f.name.toList ++ ['(']

/-- The function that `s` opens a call of, and what follows the opening parenthesis. -/
def recognize? (s : List Char) : Option (Callee × List Char) :=
  Callee.all.findSome? fun f => (dropWord? (opening f) s).map fun t => (f, t)

def closes (s : List Char) : Bool := s = [')', '}', '}']

def isTokenEnd (c : Char) : Bool :=
  c = ',' || c = ')' || isBlank c || c = '\x0c'

def emptyArguments? (s : List Char) : Option Unit :=
  if closes (dropBlanks s) then some () else none

def notArguments? (s : List Char) : Option Unit := do
  let s ← dropWord? "BeEmpty(".toList (dropBlanks s)
  let s ← dropWord? [')'] (dropBlanks s)
  if closes (dropBlanks s) then some () else none

def timestampArguments? (s : List Char) : Option (List Char × List Char) := do
  let s := dropBlanks s
  let token := s.takeWhile (!isTokenEnd ·)
  if token.isEmpty then none
  else
    let s ← dropWord? [','] (dropBlanks (s.dropWhile (!isTokenEnd ·)))
    let s := dropBlanks s
    let digits := s.takeWhile Char.isDigit
    if digits.isEmpty then none
    else if closes (dropBlanks (s.dropWhile Char.isDigit)) then some (token, digits)
    else none

/-- Longer symbols come before those they begin with. -/
def symbols : List Comparison :=
  [.equal, .greaterOrEqual, .lessOrEqual, .greater, .less, .approx]

def comparison? (s : List Char) : Option (Comparison × List Char) :=
  symbols.findSome? fun c => (dropWord? c.symbol.toList s).map fun t => (c, t)

def takeSign : List Char → List Char × List Char
  | '+' :: t => (['+'], t)
  | '-' :: t => (['-'], t)
  | s => ([], s)

def mantissa? (s : List Char) : Option (List Char × List Char) :=
  let whole := s.takeWhile Char.isDigit
  match s.dropWhile Char.isDigit with
  | '.' :: t =>
    let fraction := t.takeWhile Char.isDigit
    if whole.isEmpty && fraction.isEmpty then none
    else some (whole ++ '.' :: fraction, t.dropWhile Char.isDigit)
  | t => if whole.isEmpty then none else some (whole, t)

/-- An exponent, if there is one; its letter must be followed by digits. -/
def exponent? : List Char → Option (List Char × List Char)
  | [] => some ([], [])
  | c :: t =>
    if c = 'e' || c = 'E' then
      let (sign, t) := takeSign t
      let digits := t.takeWhile Char.isDigit
      if digits.isEmpty then none
      else some (c :: sign ++ digits, t.dropWhile Char.isDigit)
    else some ([], c :: t)

def numberToken? (s : List Char) : Option (List Char × List Char) := do
  let (sign, s) := takeSign s
  let (mantissa, s) ← mantissa? s
  let (exponent, s) ← exponent? s
  some (sign ++ mantissa ++ exponent, s)

theorem takeSign_length_le (s : List Char) : (takeSign s).2.length ≤ s.length := by
  unfold takeSign
  split <;> simp

theorem dropBlanks_length_le (s : List Char) : (dropBlanks s).length ≤ s.length :=
  (List.dropWhile_suffix _).length_le

theorem mantissa?_length_le {s t m : List Char} (h : mantissa? s = some (m, t)) :
    t.length ≤ s.length := by
  have hs : (s.dropWhile Char.isDigit).length ≤ s.length := (List.dropWhile_suffix _).length_le
  unfold mantissa? at h
  dsimp only at h
  split at h
  next u hu =>
    have ht : (u.dropWhile Char.isDigit).length ≤ u.length := (List.dropWhile_suffix _).length_le
    rw [hu, List.length_cons] at hs
    split at h
    · simp at h
    · simp only [Option.some.injEq, Prod.mk.injEq] at h
      rw [← h.2]
      omega
  next =>
    split at h
    · simp at h
    · simp only [Option.some.injEq, Prod.mk.injEq] at h
      rw [← h.2]
      exact hs

theorem exponent?_length_le {s t e : List Char} (h : exponent? s = some (e, t)) :
    t.length ≤ s.length := by
  unfold exponent? at h
  split at h
  · simp only [Option.some.injEq, Prod.mk.injEq] at h
    simp [← h.2]
  next c u =>
    have hu := takeSign_length_le u
    have ht : ((takeSign u).2.dropWhile Char.isDigit).length ≤ (takeSign u).2.length :=
      (List.dropWhile_suffix _).length_le
    dsimp only at h
    split at h
    · split at h
      · simp at h
      · simp only [Option.some.injEq, Prod.mk.injEq] at h
        rw [← h.2, List.length_cons]
        omega
    · simp only [Option.some.injEq, Prod.mk.injEq] at h
      simp [← h.2]

theorem numberToken?_length_le {s t n : List Char} (h : numberToken? s = some (n, t)) :
    t.length ≤ s.length := by
  have hs := takeSign_length_le s
  simp only [numberToken?, Option.bind_eq_bind, Option.bind_eq_some_iff] at h
  obtain ⟨⟨m, u⟩, hm, ⟨e, v⟩, he, h⟩ := h
  simp only [Option.some.injEq, Prod.mk.injEq] at h
  have hm' := mantissa?_length_le hm
  have he' := exponent?_length_le he
  rw [← h.2]
  exact Nat.le_trans he' (Nat.le_trans hm' hs)

def numbers? (s : List Char) : Option (List (List Char)) :=
  match hn : numberToken? (dropBlanks s) with
  | none => none
  | some (token, t) =>
    match hc : dropBlanks t with
    | ',' :: u =>
      have : u.length < s.length := by
        have h₁ := numberToken?_length_le hn
        have h₂ := dropBlanks_length_le s
        have h₃ := dropBlanks_length_le t
        rw [hc, List.length_cons] at h₃
        omega
      (numbers? u).map (token :: ·)
    | u => if closes u then some [token] else none
termination_by s.length

def numberArguments? (s : List Char) : Option (Comparison × List (List Char)) := do
  let (c, s) ← comparison? (dropBlanks s)
  let s ← dropWord? [','] (dropBlanks s)
  let tokens ← numbers? s
  some (c, tokens)

/-- The milliseconds that `digits` write, if they fit 63 bits. -/
def delta? (digits : List Char) : Option Nat :=
  let n := Text.digitsToNat digits
  if n < 1 <<< 63 then some n else none

def parseTimestamp (text : String) : Except MatchError Timestamp :=
  (Timestamp.parse text).mapError (.invalidTimestamp text)

def timestampCall (input : String) (token digits : List Char) :
    Except MatchError Expression := do
  let instant ← parseTimestamp (String.ofList token)
  match delta? digits with
  | some delta => pure (timestamp instant delta)
  | none => throw (.invalidExpression input (.deltaOutOfRange (String.ofList digits)))

def operand (token : List Char) : Except MatchError Binary64 :=
  match Binary64.parse? token with
  | some x => .ok x
  | none => .error (.invalidNumber (String.ofList token))

def numberCall (input : String) (c : Comparison) (tokens : List (List Char)) :
    Except MatchError Expression := do
  let wrongCount := MatchError.invalidExpression input (.arity c tokens.length)
  if tokens.length ≠ c.arity then throw wrongCount
  match NumberTest.ofOperands? c (← tokens.mapM operand) with
  | some test => pure (number test)
  | none => throw wrongCount

def call (input : String) (f : Callee) (arguments : List Char) : Except MatchError Expression :=
  let malformed := Except.error (MatchError.invalidExpression input (.shape f))
  match f with
  | .beEmpty => (emptyArguments? arguments).elim malformed fun _ => .ok (emptiness .empty)
  | .not => (notArguments? arguments).elim malformed fun _ => .ok (emptiness .notEmpty)
  | .beTimestamp =>
    (timestampArguments? arguments).elim malformed fun (token, digits) =>
      timestampCall input token digits
  | .beNumerically =>
    (numberArguments? arguments).elim malformed fun (c, tokens) => numberCall input c tokens

/-- The expression that a text is, or `none` for a text that stands for itself. -/
def parse (input : String) : Except MatchError (Option Expression) :=
  match recognize? input.toList with
  | none => .ok none
  | some (f, arguments) => (call input f arguments).map some

end Expression

end DocMatch
