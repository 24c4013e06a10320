import DocMatch.Diagnostic.Basic
import DocMatch.Error
import DocMatch.Sensitive

/-!
What the library notes while it works. Substituting and matching are operations, each with a start
and an end; between them stand the places visited. An event shows as a message, if it has one, and
named fields in a fixed order. How long an operation took and which call of a matcher an event
belongs to are known outside only and stand as blanks here.
-/

namespace DocMatch

inductive Level where
  | trace
  | debug
  | info
  | warn
  | error
  deriving DecidableEq, Repr

namespace Level

def name : Level → String
  | trace => "TRACE"
  | debug => "DEBUG"
  | info => "INFO"
  | warn => "WARN"
  | error => "ERROR"

def rank : Level → Nat
  | trace => 0
  | debug => 1
  | info => 2
  | warn => 3
  | error => 4

end Level

inductive Operation where
  | substitute
  | matching
  deriving DecidableEq, Repr

def Operation.name : Operation → String
  | substitute => "substitute"
  | matching => "match"

inductive Event where
  | started (operation : Operation)
  | substituted
  | substitutionFailed (category : Category)
  | matched (result : Bool)
  | matchFailed (category : Category) (path : String)
  | mismatch (diagnostic : Diagnostic)
  | substituting (count : Nat)
  | resolved (name : String) (value : Sensitive String)
  | visiting (path : String) (expected actual : Kind)
  | comparingArrays (path : String) (expected actual : Nat)

/-- The value of a field: text that shows in quotes where quotes are used, text that never does,
or a blank to be filled in outside. -/
inductive FieldValue where
  | quoted (text : String)
  | plain (text : String)
  | count (n : Nat)
  | flag (b : Bool)
  | elapsed
  | matchId
  deriving DecidableEq, Repr

namespace Event

def names : List String := ["start", "end", "end_error", "mismatch"]

def fieldNames : List String :=
  ["component", "op", "event", "duration_ms", "match_id", "path", "err.kind", "err.code"]

def level : Event → Level
  | started _ | substituted | matched _ => .info
  | substitutionFailed _ | matchFailed .. => .error
  | mismatch _ | substituting _ | comparingArrays .. => .debug
  | resolved .. | visiting .. => .trace

def operation? : Event → Option Operation
  | started op => some op
  | substituted | substitutionFailed _ => some .substitute
  | matched _ | matchFailed .. | mismatch _ => some .matching
  | _ => none

def name? : Event → Option String
  | started _ => some "start"
  | substituted | matched _ => some "end"
  | substitutionFailed _ | matchFailed .. => some "end_error"
  | mismatch _ => some "mismatch"
  | _ => none

def target : Event → String
  | substituting _ | resolved .. => "gosert_core::expr::substitute"
  | visiting .. => "gosert_core::walk"
  | comparingArrays .. => "gosert_core::reconcile"
  | _ => "gosert_core::matcher"

def message? : Event → Option String
  | substituting _ => some "substituting variables"
  | resolved .. => some "variable resolved"
  | visiting .. => some "visit"
  | comparingArrays .. => some "reconcile array"
  | _ => none

def header (e : Event) : List (String × FieldValue) :=
  (match e.operation? with
    | some op => [("op", .quoted op.name)]
    | none => []) ++
  (match e.name? with
    | some name => [("event", .quoted name)]
    | none => [])

def component (e : Event) : String × FieldValue := ("component", .quoted e.target)

def errorFields (category : Category) : List (String × FieldValue) :=
  [("err.kind", .plain category.name), ("err.code", .quoted category.code)]

def fields (e : Event) : List (String × FieldValue) :=
  match e with
  | started .substitute => e.component :: e.header
  | started .matching => e.component :: e.header ++ [("match_id", .matchId)]
  | substituted => e.component :: e.header ++ [("duration_ms", .elapsed)]
  | substitutionFailed category =>
    e.component :: e.header ++ [("duration_ms", .elapsed)] ++ errorFields category
  | matched result =>
    e.component :: e.header ++
      [("duration_ms", .elapsed), ("match_id", .matchId), ("matched", .flag result)]
  | matchFailed category path =>
    e.component :: e.header ++ [("duration_ms", .elapsed)] ++ errorFields category
      ++ [("match_id", .matchId), ("path", .quoted path)]
  | mismatch d =>
    e.header ++ [("match_id", .matchId), ("path", .quoted d.path),
      ("expected", .quoted d.expected), ("actual", .quoted d.actual)]
  | substituting count => [("var_count", .count count)]
  | resolved name value => [("name", .plain name), ("value", .plain value.text)]
  | visiting path expected actual =>
    [("path", .quoted path), ("expected_kind", .plain expected.name),
      ("actual_kind", .plain actual.name)]
  | comparingArrays path expected actual =>
    [("path", .quoted path), ("expected_len", .count expected), ("actual_len", .count actual)]

/-- Whether the event has a field. Its message is one. -/
def hasField (e : Event) (name : String) : Bool :=
  (name = "message" && e.message?.isSome) || e.fields.any (·.1 = name)

/-- Whether the event says which call of a matcher it belongs to. -/
def isOfMatch (e : Event) : Bool := e.operation? = some .matching

end Event

/-- A value together with what was noted on the way to it. -/
structure Traced (α : Type) where
  events : List Event
  value : α

namespace Traced

variable {α β : Type}

def pure (value : α) : Traced α := ⟨[], value⟩

def bind (x : Traced α) (f : α → Traced β) : Traced β :=
  ⟨x.events ++ (f x.value).events, (f x.value).value⟩

def map (f : α → β) (x : Traced α) : Traced β := ⟨x.events, f x.value⟩

def noting (e : Event) (x : Traced α) : Traced α := ⟨e :: x.events, x.value⟩

instance : Monad Traced where
  pure := Traced.pure
  bind := Traced.bind

theorem value_bind (x : Traced α) (f : α → Traced β) : (x.bind f).value = (f x.value).value := rfl

theorem events_bind (x : Traced α) (f : α → Traced β) :
    (x.bind f).events = x.events ++ (f x.value).events := rfl

theorem value_noting (e : Event) (x : Traced α) : (x.noting e).value = x.value := rfl

theorem events_noting (e : Event) (x : Traced α) : (x.noting e).events = e :: x.events := rfl

end Traced

end DocMatch
