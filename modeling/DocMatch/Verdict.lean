import DocMatch.Diagnostic.Basic
import DocMatch.Event.Basic
import DocMatch.Report

/-!
How a comparison ends: the two sides match, or they differ at a place, or an error at a place put an
end to it. Whoever asked for it is told in three parts, from which the messages follow.
-/

namespace DocMatch

inductive Verdict where
  | matched
  | mismatch (diagnostic : Diagnostic)
  | failed (diagnostic : Diagnostic) (error : MatchError)
  deriving DecidableEq, Repr

structure Failure where
  diagnostic : Diagnostic
  source : MatchError
  deriving DecidableEq, Repr

/-- Names the place only. What went wrong there is the message of the source. -/
def Failure.text (f : Failure) : String := "walk aborted at " ++ f.diagnostic.text

structure MatchOutcome where
  matched : Bool
  diagnostic? : Option Diagnostic
  failure? : Option Failure
  deriving DecidableEq, Repr

namespace MatchOutcome

def failureMessage (o : MatchOutcome) : String := (o.diagnostic?.map Diagnostic.text).getD ""

def negatedFailureMessage (o : MatchOutcome) : String :=
  (o.diagnostic?.map fun d => "Not " ++ d.text).getD ""

end MatchOutcome

namespace Verdict

def outcome : Verdict → MatchOutcome
  | matched => ⟨true, none, none⟩
  | mismatch d => ⟨false, some d, none⟩
  | failed d e => ⟨false, some d, some ⟨d, e⟩⟩

def isMatch (v : Verdict) : Bool := v.outcome.matched

def diagnostic? (v : Verdict) : Option Diagnostic := v.outcome.diagnostic?

def error? (v : Verdict) : Option MatchError := v.outcome.failure?.map Failure.source

def failureMessage (v : Verdict) : String := v.outcome.failureMessage

def negatedFailureMessage (v : Verdict) : String := v.outcome.negatedFailureMessage

def ofTest (d : Diagnostic) : Except MatchError Bool → Verdict
  | .ok true => matched
  | .ok false => mismatch d
  | .error e => failed d e

end Verdict

def Report.ofFailure (d : Diagnostic) (e : MatchError) : Report :=
  ((Report.ofCategory e.category).withPath d.path).withMessage e.message

namespace Traced

def firstFailure {α : Type} (compare : α → Traced Verdict) : List α → Traced Verdict
  | [] => ⟨[], .matched⟩
  | a :: rest =>
    let first := compare a
    match first.value with
    | .matched =>
      let more := firstFailure compare rest
      ⟨first.events ++ more.events, more.value⟩
    | verdict => ⟨first.events, verdict⟩

theorem value_firstFailure_cons {α : Type} (compare : α → Traced Verdict) (a : α) (l : List α) :
    (firstFailure compare (a :: l)).value =
      if (compare a).value = .matched then (firstFailure compare l).value
      else (compare a).value := by
  rw [firstFailure]
  split
  next h => simp [h]
  next h => rw [if_neg h]

end Traced

end DocMatch
