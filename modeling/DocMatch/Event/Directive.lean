import DocMatch.Binary64.Decimal
import DocMatch.Event.Basic
import DocMatch.Text.Digits
import DocMatch.Text.Pattern

/-!
Directives, of which a filter is made. A directive gives the least level shown of the parts of the
library whose names begin with its target. In brackets it may name a scope, and in braces a field,
which an event must have, or which must have a certain value in a scope around.

Blanks before and after a directive are passed over when it is taken apart, but its pieces are then
counted off from where the blanks begin. So blanks in front move every piece, and the last piece
ends with those behind.
-/

namespace DocMatch

structure FieldDemand where
  name : String
  value : Option String
  deriving DecidableEq, Repr

structure Directive where
  target : String
  scope : Option String
  field : Option FieldDemand
  /-- The least level shown, `none` where nothing is. -/
  least : Option Level
  deriving DecidableEq, Repr

def Level.least? (text : String) : Option (Option Level) :=
  let digits := if text.startsWith "+" then text.toList.drop 1 else text.toList
  if !digits.isEmpty && digits.all Char.isDigit then
    match Text.digitsToNat digits with
    | 0 => some none
    | 1 => some (some error)
    | 2 => some (some warn)
    | 3 => some (some info)
    | 4 => some (some debug)
    | 5 => some (some trace)
    | _ => none
  else
    match String.ofList (text.toList.map Char.toLower) with
    | "off" => some none
    | "error" => some (some error)
    | "warn" => some (some warn)
    | "info" => some (some info)
    | "debug" => some (some debug)
    | "trace" => some (some trace)
    | _ => none

def FieldDemand.ofText? (text : String) : Option FieldDemand :=
  match text.splitOn "=" with
  | name :: value :: _ =>
    if (Binary64.parse? value.toList).isSome || Text.Pattern.isPattern value.toList then
      some ⟨name, some value⟩
    else none
  | _ => some ⟨text, none⟩

namespace Directive

def ofTarget (target : String) (least : Option Level) : Directive := ⟨target, none, none, least⟩

def piece? (text : Bytes) (start stop : Nat) : Option String :=
  Utf8.text? ((text.take stop).drop start)

def width (s : List Char) : Nat := (String.ofList s).utf8ByteSize

/-- Reads the level that begins at a byte and ends with the text. Where there is none, every level
is shown. -/
def levelFrom? (text : Bytes) (start : Nat) : Option (Option Level) := do
  let level ← piece? text start text.length
  if level.isEmpty then some (some .trace) else Level.least? level

def endFrom? (text : Bytes) (stop : Nat) : List Char → Option (Option Level)
  | [] => some (some .trace)
  | '=' :: _ => levelFrom? text (stop + 1)
  | _ => none

def bracketed? (target : String) (text : Bytes) (start : Nat) (rest : List Char) :
    Option Directive := do
  let scope := rest.takeWhile fun c => c ≠ ']' && c ≠ '{'
  let stop := start + width scope
  let named ← piece? text start stop
  match rest.drop scope.length with
  | ']' :: rest =>
    some { target, scope := some named, field := none, least := ← endFrom? text (stop + 1) rest }
  | '{' :: rest =>
    let field := rest.takeWhile (· ≠ '}')
    let start := stop + 1
    let stop := start + width field
    match rest.drop field.length with
    | '}' :: ']' :: rest =>
      let demand ← piece? text start stop
      if demand.isEmpty then none
      else
        some
          { target, scope := if named.isEmpty then none else some named
            field := some (← FieldDemand.ofText? demand)
            least := ← endFrom? text (stop + 2) rest }
    | _ => none
  | _ => none

def isFirst (c : Char) : Bool := Text.isAlphanumeric c || c = '-' || c = ':' || c = '_'

def ofText? (s : String) : Option Directive :=
  let text := Bytes.ofString s
  match Text.trim s.toList with
  | [] => none
  | '[' :: rest => bracketed? "" text 1 rest
  | c :: t =>
    if isFirst c then
      let word := c :: t.takeWhile fun d => d ≠ '=' && d ≠ '['
      let stop := width word
      match (c :: t).drop word.length with
      | '=' :: _ => do some (ofTarget (← piece? text 0 stop) (← levelFrom? text (stop + 1)))
      | '[' :: rest => do bracketed? (← piece? text 0 stop) text (stop + 1) rest
      | _ =>
        match Level.least? s with
        | some least => some (ofTarget "" least)
        | none => some (ofTarget s (some .trace))
    else none

def isStatic (d : Directive) : Bool := d.scope.isNone && d.field.all (·.value.isNone)

/-- Whether a directive is about an event. The library opens no scopes. -/
def appliesTo (d : Directive) (e : Event) : Bool :=
  d.isStatic && d.target.toList.isPrefixOf e.target.toList && d.field.all fun f => e.hasField f.name

/-- Whether `d` goes before `c` where both are about an event: for a longer target, for a field, or
for a later name of the field. Of two that are alike the latter goes before. -/
def goesBefore (d c : Directive) : Bool :=
  if d.target.length = c.target.length then
    match d.field, c.field with
    | some f, some g => !(f.name < g.name)
    | field, other => field.isSome || other.isNone
  else c.target.length < d.target.length

end Directive

end DocMatch
