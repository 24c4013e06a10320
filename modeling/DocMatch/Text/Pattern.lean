import DocMatch.Bytes
import DocMatch.Text.Alphanumeric
import DocMatch.Text.Blank

/-!
Patterns for text: which regular expressions are well formed. Groups may be named, and may switch
modes for what follows in them; classes nest and combine. Without the mode for all of Unicode, what
could match a part of a character is refused; with it, the edges of words are. Counted repetition is
left out. A pattern is read from left to right, a character at a time. Main definition: `isPattern`.
-/

namespace DocMatch.Text.Pattern

structure Modes where
  /-- Whether blanks and comments count for nothing. -/
  spaced : Bool
  unicode : Bool
  deriving DecidableEq, Repr

inductive Item where
  | literal (c : Char)
  | set
  /-- A place between two characters. -/
  | edge
  deriving DecidableEq, Repr

inductive ClassPlace where
  | opened
  | negated
  /-- After the dashes that a class may begin with. -/
  | dashes
  | fresh
  /-- After an item with which a range may begin. -/
  | after (item : Item)
  | upTo (first : Char)
  deriving DecidableEq, Repr

inductive Place where
  | outside
  | group
  | escape
  /-- Before some more digits of the number of a character. -/
  | digits (left : Nat) (isByte : Bool) (number : Nat)
  | property
  deriving DecidableEq, Repr

structure State where
  modes : Modes
  /-- The modes after each open group, those of the innermost first. -/
  outer : List Modes
  names : List (List Char)
  /-- Whether there is something to repeat. -/
  repeatable : Bool
  /-- How many classes are open. -/
  depth : Nat
  classPlace : ClassPlace
  place : Place
  deriving DecidableEq, Repr

/-- The text after blanks and comments. A comment runs to the end of the line. -/
def skip (inComment : Bool) : List Char → List Char
  | [] => []
  | c :: t =>
    if inComment then skip (c ≠ '\n') t
    else if c = '#' then skip true t
    else if isBlank c then skip false t
    else c :: t

def hexDigit? (c : Char) : Option Nat := if c.toNat < 0x80 then Bytes.hexValue? (byte c) else none

def classNames : List String :=
  ["alnum", "alpha", "ascii", "blank", "cntrl", "digit", "graph", "lower", "print", "punct", "space",
    "upper", "word", "xdigit"]

def namedClass? : List Char → Option (Bool × Nat)
  | ':' :: t =>
    let negated := t.head? = some '^'
    let word := if negated then t.drop 1 else t
    let name := word.takeWhile (· ≠ ':')
    if (":]".toList).isPrefixOf (word.drop name.length)
        && classNames.contains (String.ofList name) then
      some (negated, name.length + if negated then 4 else 3)
    else none
  | _ => none

def modeLetters : List Char := ['i', 'm', 's', 'U', 'u', 'x', 'R']

def Modes.switch? (modes : Modes) (letters : List Char) : Option Modes :=
  let on := letters.takeWhile (· ≠ '-')
  let off := letters.drop (on.length + 1)
  if (on ++ off).all modeLetters.contains && (on ++ off).Nodup
      && (letters.length = on.length || !off.isEmpty) then
    some
      { spaced := on.contains 'x' || (modes.spaced && !off.contains 'x')
        unicode := on.contains 'u' || (modes.unicode && !off.contains 'u') }
  else none

def isName : List Char → Bool
  | [] => false
  | c :: t =>
    (c = '_' || isAlphabetic c)
      && t.all fun d => d = '_' || d = '.' || d = '[' || d = ']' || isAlphanumeric d

namespace State

def initial : State := ⟨⟨false, true⟩, [], [], false, 0, .fresh, .outside⟩

def holds (s : State) (c : Char) : Bool := s.modes.unicode || c.toNat < 0x80

/-- The state after an item. In a class an item may end a range, and may begin one if it ends
none. -/
def put (s : State) (item : Item) : Option State :=
  if s.depth = 0 then some { s with place := .outside, repeatable := true }
  else
    match s.classPlace, item with
    | _, .edge => none
    | .upTo first, .literal c =>
      if s.holds c && first ≤ c then some { s with place := .outside, classPlace := .fresh }
      else none
    | .upTo _, .set => none
    | _, .literal c =>
      if s.holds c then some { s with place := .outside, classPlace := .after item } else none
    | _, .set => some { s with place := .outside, classPlace := .after item }

def plain (s : State) (c : Char) : Option State :=
  if c = '\\' then some { s with place := .escape } else s.put (.literal c)

def escaped (s : State) (c : Char) : Option State :=
  match c with
  | 'x' => some { s with place := .digits 2 true 0 }
  | 'u' => some { s with place := .digits 4 false 0 }
  | 'U' => some { s with place := .digits 8 false 0 }
  | 'p' | 'P' => if s.modes.unicode then some { s with place := .property } else none
  | 'd' | 's' | 'w' => s.put .set
  | 'D' | 'S' | 'W' => if s.modes.unicode then s.put .set else none
  | 'A' | 'z' => s.put .edge
  | 'b' | 'B' | '<' | '>' => if s.modes.unicode then none else s.put .edge
  | 'a' => s.put (.literal '\x07')
  | 't' => s.put (.literal '\t')
  | 'n' => s.put (.literal '\n')
  | 'v' => s.put (.literal '\x0b')
  | 'f' => s.put (.literal '\x0c')
  | 'r' => s.put (.literal '\r')
  | _ => if c.toNat < 0x80 && !c.isAlphanum then s.put (.literal c) else none

def digit (s : State) (left : Nat) (isByte : Bool) (number : Nat) (c : Char) : Option State := do
  let number := number * 16 + (← hexDigit? c)
  if 1 < left then some { s with place := .digits (left - 1) isByte number }
  else if !number.isValidChar || (isByte && !s.modes.unicode && 0x7f < number) then none
  else s.put (.literal (Char.ofNat number))

def property (s : State) (c : Char) : Option State :=
  if "clmnpsz".toList.contains c.toLower then s.put .set else none

def openGroup (s : State) (modes : Modes) : State :=
  { s with outer := s.modes :: s.outer, modes, repeatable := false, place := .outside }

def openNamed (s : State) (t : List Char) : Option (State × Nat) :=
  let name := t.takeWhile (· ≠ '>')
  if isName name && name.length < t.length && !s.names.contains name then
    some ({ s.openGroup s.modes with names := name :: s.names }, name.length + 1)
  else none

/-- What stands between the question mark after a parenthesis and the content of the group: a name,
or modes, which hold for the rest of the group around where no group begins. -/
def header (s : State) (t : List Char) : Option (State × Nat) :=
  match t with
  | 'P' :: '<' :: t => (s.openNamed t).map fun (s, taken) => (s, taken + 2)
  | '<' :: t => (s.openNamed t).map fun (s, taken) => (s, taken + 1)
  | _ => do
    let letters := t.takeWhile fun c => c ≠ ':' && c ≠ ')'
    let modes ← s.modes.switch? letters
    match t[letters.length]? with
    | some ':' => some (s.openGroup modes, letters.length + 1)
    | some ')' =>
      if letters.isEmpty then none
      else
        some ({ s with modes, repeatable := false, place := .outside }, letters.length + 1)
    | _ => none

def openClass (s : State) : State :=
  { s with depth := s.depth + 1, classPlace := .opened, place := .outside }

def outer? (s : State) (c : Char) : Option State :=
  match c with
  | '(' => some { s with place := .group }
  | ')' =>
    match s.outer with
    | modes :: outer => some { s with modes, outer, repeatable := true }
    | [] => none
  | '|' => some { s with repeatable := false }
  | '?' | '*' | '+' => if s.repeatable then some s else none
  | '{' => none
  | '[' => some s.openClass
  | '.' => if s.modes.unicode then s.put .set else none
  | _ => s.plain c

def inClass (s : State) (c : Char) (t : List Char) : Option (State × Nat) :=
  if (c = '&' || c = '~' || c = '-') && t.head? = some c then
    some ({ s with classPlace := .fresh }, 1)
  else (s.plain c).map (·, 0)

def classStep (s : State) (c : Char) (t : List Char) : Option (State × Nat) :=
  match s.classPlace, c with
  | .opened, '^' => if s.modes.unicode then some ({ s with classPlace := .negated }, 0) else none
  | .opened, ']' | .negated, ']' => some ({ s with classPlace := .fresh }, 0)
  | .opened, '-' | .negated, '-' | .dashes, '-' => some ({ s with classPlace := .dashes }, 0)
  | .upTo _, _ => (s.plain c).map (·, 0)
  | .after item, '-' =>
    let next := (if s.modes.spaced then skip false t else t).head?
    if next = some ']' || next = some '-' then s.inClass c t
    else
      match item with
      | .literal first => some ({ s with classPlace := .upTo first }, 0)
      | _ => none
  | _, '[' =>
    match namedClass? t with
    | some (negated, taken) =>
      if negated && !s.modes.unicode then none else some ({ s with classPlace := .fresh }, taken)
    | none => some (s.openClass, 0)
  | _, ']' =>
    some ({ s with depth := s.depth - 1, classPlace := .fresh, repeatable := true }, 0)
  | _, _ => s.inClass c t

/-- The state after a character, and how many of the characters after it are read with it. -/
def step (s : State) (c : Char) (t : List Char) : Option (State × Nat) :=
  match s.place with
  | .escape => (s.escaped c).map (·, 0)
  | .digits left isByte number => (s.digit left isByte number c).map (·, 0)
  | .property => (s.property c).map (·, 0)
  | .group =>
    if c = '?' then s.header t else ((s.openGroup s.modes).outer? c).map (·, 0)
  | .outside => if s.depth = 0 then (s.outer? c).map (·, 0) else s.classStep c t

def skips (s : State) : Bool := s.modes.spaced && s.place ≠ .escape

def isComplete (s : State) : Bool := s.place = .outside && s.depth = 0 && s.outer.isEmpty

def accepts (s : State) : List Char → Bool
  | [] => s.isComplete
  | c :: t =>
    if s.skips && c = '#' then s.accepts (t.dropWhile (· ≠ '\n'))
    else if s.skips && isBlank c then s.accepts t
    else
      match s.step c t with
      | some (s', taken) => s'.accepts (t.drop taken)
      | none => false
termination_by t => t.length
decreasing_by
  · exact Nat.lt_succ_of_le (List.dropWhile_sublist _).length_le
  · simp
  · simp only [List.length_drop, List.length_cons]; omega

end State

def isPattern (text : List Char) : Bool := State.initial.accepts text

end DocMatch.Text.Pattern
