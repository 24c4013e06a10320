import DocMatch.Binary64.Decimal
import DocMatch.Text.Terminal

/-!
Arguments. A subcommand is named first, options may stand before or after what the subcommand is
about, and an option's value is the next argument or follows an equals sign. A value that is an
argument of its own is looked at only when the argument after it has been recognised, so of two
mistakes the later one may be reported. Main definition: `parse`.
-/

namespace DocMatch.CommandLine

inductive Profile where
  | dev
  | prod
  deriving DecidableEq, Repr

inductive Flag where
  | log
  | var
  | varsFile
  | tolerance
  | output
  deriving DecidableEq, Repr

namespace Flag

def name : Flag → String
  | log => "log"
  | var => "var"
  | varsFile => "vars-file"
  | tolerance => "numeric-tolerance"
  | output => "output"

def letter? : Flag → Option Char
  | output => some 'o'
  | _ => none

def placeholder : Flag → String
  | log => "LOG"
  | var => "NAME=VALUE"
  | varsFile => "FILE"
  | tolerance => "F"
  | output => "OUTPUT"

end Flag

/-- Why arguments are refused. Only a value that is given and does not fit has a report of its
own. -/
inductive UsageFault where
  | invalidValue (value : String) (flag : Flag) (reason : Option String)
  | other
  deriving DecidableEq, Repr

def styled (style : Nat) (text : String) : String :=
  "\x1b[" ++ toString style ++ "m" ++ text ++ "\x1b[0m"

/-- The report for a terminal, where it is fixed. -/
def UsageFault.styledReport? : UsageFault → Option String
  | invalidValue value flag reason =>
    some ("error: invalid value '" ++ styled 33 value ++ "' for '"
      ++ styled 1 ("--" ++ flag.name ++ " <" ++ flag.placeholder ++ ">") ++ "'"
      ++ (reason.map (": " ++ ·)).getD "" ++ "\n\nFor more information, try '" ++ styled 1 "--help"
      ++ "'.\n")
  | other => none

def UsageFault.report? (fault : UsageFault) : Option String :=
  fault.styledReport?.map fun report =>
    String.ofList ((Text.Terminal.visible report).toList.takeWhile (· ≠ '\n'))

/-- Where the values of variables come from. -/
structure Sources where
  vars : List (String × String)
  varsFile : Option String
  deriving DecidableEq, Repr

inductive Command where
  | compare (expected actual : String) (sources : Sources) (tolerance : Option Binary64)
  | substitute (file : String) (sources : Sources) (output : Option String)
  deriving DecidableEq, Repr

structure Invocation where
  log : Option Profile
  command : Command
  deriving DecidableEq, Repr

inductive Scope where
  | top
  | compare
  | substitute
  deriving DecidableEq, Repr

namespace Scope

def flags : Scope → List Flag
  | top => [.log]
  | compare => [.log, .var, .varsFile, .tolerance]
  | substitute => [.log, .var, .varsFile, .output]

/-- How many arguments that belong to no option are wanted. -/
def places : Scope → Nat
  | top => 0
  | compare => 2
  | substitute => 1

def named? (scope : Scope) (name : String) : Option Flag := scope.flags.find? (·.name = name)

def lettered? (scope : Scope) (letter : Char) : Option Flag :=
  scope.flags.find? (·.letter? = some letter)

def begun? : Scope → String → Option Scope
  | top, "match" => some compare
  | top, "substitute" => some substitute
  | _, _ => none

end Scope

structure Given where
  log : Option Profile
  vars : List (String × String)
  varsFile : Option String
  tolerance : Option Binary64
  output : Option String
  places : List String

def Given.nothing : Given := ⟨none, [], none, none, none, []⟩

def once {α : Type} (earlier : Option α) (value : Except UsageFault α) : Except UsageFault α :=
  if earlier.isSome then .error .other else value

def path (value : String) : Except UsageFault String :=
  if value.isEmpty then .error .other else .ok value

def profile (value : String) : Except UsageFault Profile :=
  match value with
  | "dev" => .ok .dev
  | "prod" => .ok .prod
  | "" => .error .other
  | _ => .error (.invalidValue value .log none)

def binding (value : String) : Except UsageFault (String × String) :=
  let name := value.toList.takeWhile (· ≠ '=')
  let refused := UsageFault.invalidValue value .var
    (some ("expected NAME=VALUE, got '" ++ value ++ "'"))
  match value.toList.dropWhile (· ≠ '=') with
  | _ :: rest =>
    if name.isEmpty then .error refused else .ok (String.ofList name, String.ofList rest)
  | [] => .error refused

def number (value : String) : Except UsageFault Binary64 :=
  match Binary64.parse? value.toList with
  | some x => .ok x
  | none =>
    .error (.invalidValue value .tolerance (some
      (if value.isEmpty then "cannot parse float from empty string" else "invalid float literal")))

def Given.accept (given : Given) (flag : Flag) (value : String) : Except UsageFault Given :=
  match flag with
  | .log => (once given.log (profile value)).map fun p => { given with log := some p }
  | .var => (binding value).map fun b => { given with vars := given.vars ++ [b] }
  | .varsFile => (once given.varsFile (path value)).map fun p => { given with varsFile := some p }
  | .tolerance => (once given.tolerance (number value)).map fun x =>
      { given with tolerance := some x }
  | .output => (once given.output (path value)).map fun p => { given with output := some p }

/-- An argument recognised but not yet looked at. -/
inductive Pending where
  | flag (flag : Flag) (value : Option String)
  | place (value : String)

structure State where
  given : Given
  pending : Option Pending
  /-- Arguments that belong to no option, pending or not. -/
  placed : Nat
  /-- Whether nothing is an option any more. -/
  plain : Bool

namespace State

def initial : State := ⟨.nothing, none, 0, false⟩

def settle (s : State) : Except UsageFault State := do
  let given ← match s.pending with
    | none => pure s.given
    | some (.flag _ none) => throw .other
    | some (.flag f (some value)) => s.given.accept f value
    | some (.place value) => do
      pure { s.given with places := s.given.places ++ [← path value] }
  pure { s with given, pending := none }

def option (s : State) (flag : Flag) : Option String → Except UsageFault State
  | some value => do
    let s ← s.settle
    pure { s with given := ← s.given.accept flag value }
  | none => do pure { ← s.settle with pending := some (.flag flag none) }

def place (scope : Scope) (s : State) (value : String) : Except UsageFault State :=
  if s.placed < scope.places then do
    pure { ← s.settle with pending := some (.place value), placed := s.placed + 1 }
  else .error .other

def awaiting? (s : State) : Option Flag :=
  match s.pending with
  | some (.flag f none) => some f
  | _ => none

def long (scope : Scope) (s : State) (text : List Char) : Except UsageFault State :=
  match scope.named? (String.ofList (text.takeWhile (· ≠ '='))) with
  | none => .error .other
  | some flag =>
    match text.dropWhile (· ≠ '=') with
    | [] => s.option flag none
    | _ :: value => s.option flag (some (String.ofList value))

def short (scope : Scope) (s : State) (letter : Char) (text : List Char) :
    Except UsageFault State :=
  match scope.lettered? letter with
  | none => .error .other
  | some flag =>
    match text with
    | [] => s.option flag none
    | '=' :: value => s.option flag (some (String.ofList value))
    | value => s.option flag (some (String.ofList value))

/-- Any argument but the name of a subcommand. -/
def next (scope : Scope) (s : State) (argument : String) : Except UsageFault State :=
  if s.plain then s.place scope argument
  else
    match argument.toList with
    | ['-', '-'] => .ok { s with plain := true }
    | '-' :: '-' :: text => s.long scope text
    | '-' :: letter :: text => s.short scope letter text
    | _ =>
      match s.awaiting? with
      | some flag => .ok { s with pending := some (.flag flag (some argument)) }
      | none => s.place scope argument

end State

/-- Reads arguments up to the name of a subcommand, if one is due, or to the end. -/
def scan (scope : Scope) (s : State) :
    List String → Except UsageFault (State × Option (Scope × List String))
  | [] => .ok (s, none)
  | argument :: rest =>
    match if s.plain || s.awaiting?.isSome then none else scope.begun? argument with
    | some begun => .ok (s, some (begun, rest))
    | none => do scan scope (← s.next scope argument) rest

def command (scope : Scope) (given : Given) : Except UsageFault Command :=
  let sources : Sources := ⟨given.vars, given.varsFile⟩
  match scope, given.places with
  | .compare, [expected, actual] => .ok (.compare expected actual sources given.tolerance)
  | .substitute, [file] => .ok (.substitute file sources given.output)
  | _, _ => .error .other

def parse (arguments : List String) : Except UsageFault Invocation := do
  let (top, more) ← scan .top .initial arguments
  match more with
  | none =>
    let _ ← top.settle
    throw .other
  | some (scope, rest) =>
    let (s, _) ← scan scope .initial rest
    let s ← s.settle
    let command ← command scope s.given
    let top ← top.settle
    pure { log := s.given.log.or top.given.log, command }

end DocMatch.CommandLine
