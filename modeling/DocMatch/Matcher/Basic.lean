import DocMatch.Compare
import DocMatch.Substitution

/-!
Matchers. A matcher holds an expected document whose placeholders have been replaced, and compares
actual documents with it. It keeps the verdict of the last comparison that was asked of it by
`run`, so that the failure message can be had afterwards.
-/

namespace DocMatch

structure Matcher where
  expected : Bytes
  config : Config
  last : Option Verdict
  /-- A tolerance that is no finite number, or is below zero, never comes into force. -/
  config_valid : config.isValid = true

theorem Config.default_isValid : Config.default.isValid = true := by decide +kernel

namespace Matcher

def ofText (text : Bytes) : Matcher :=
  { expected := text, config := .default, last := none, config_valid := Config.default_isValid }

def ofDocument (bindings : Bindings) (document : Bytes) : Traced (Except Report Matcher) :=
  (Substitution.run bindings document).map fun result => result.map ofText

def unreadable (path : String) (fault : FileFault) : Report :=
  (Report.ofError (.unreadable path fault)).withOperation "read"

/-- A matcher for the document in a file, of which `content` is what reading it gave. -/
def ofFile (bindings : Bindings) (path : String) (content : Except FileFault Bytes) :
    Traced (Except Report Matcher) :=
  match content with
  | .ok document => ofDocument bindings document
  | .error fault => .pure (.error (unreadable path fault))

def substituteFile (bindings : Bindings) (path : String) (content : Except FileFault Bytes) :
    Traced (Except Report Bytes) :=
  match content with
  | .ok text => Substitution.run bindings text
  | .error fault => .pure (.error (unreadable path fault))

def withConfig (m : Matcher) (config : Config) : Except Report Matcher :=
  if h : config.isValid = true then .ok { m with config, config_valid := h }
  else
    .error ((Report.ofError (.invalidTolerance config.tolerance)).withOperation "configure")

/-- Compares, and neither notes an operation nor keeps the verdict. -/
def evaluate (m : Matcher) (actual : Bytes) : Traced Verdict :=
  Compare.documents m.config m.expected actual

/-- What a call reports. A difference is an answer, and only an error is none. -/
def answer (o : MatchOutcome) : Except Report Bool :=
  match o.failure? with
  | some f => .error ((Report.ofFailure f.diagnostic f.source).withOperation Operation.matching.name)
  | none => .ok o.matched

def closing (o : MatchOutcome) : List Event :=
  match o.failure? with
  | some f => [.matchFailed f.source.category f.diagnostic.path]
  | none => (o.diagnostic?.map Event.mismatch).toList ++ [.matched o.matched]

def run (m : Matcher) (actual : Bytes) : Traced (Except Report Bool × Matcher) :=
  let compared := m.evaluate actual
  let outcome := compared.value.outcome
  Traced.noting (.started .matching)
    ⟨compared.events ++ closing outcome, (answer outcome, { m with last := some compared.value })⟩

/-- Empty before the first call and after a match. -/
def failureMessage (m : Matcher) : String := (m.last.map Verdict.failureMessage).getD ""

def negatedFailureMessage (m : Matcher) : String :=
  (m.last.map Verdict.negatedFailureMessage).getD ""

theorem last_run (m : Matcher) (actual : Bytes) :
    (m.run actual).value.2.last = some (m.evaluate actual).value := rfl

end Matcher

end DocMatch
