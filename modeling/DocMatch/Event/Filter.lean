import DocMatch.Event.Directive

/-!
Which events are shown. Of the directives of a filter that are about an event the one that says most
decides, and of equally telling ones the last. Where none is about it the event is not shown.
-/

namespace DocMatch

abbrev Filter := List Directive

namespace Filter

/-- The events shown where nothing else is said: all of the library from a level on. -/
def fromLevel (least : Level) : Filter := [.ofTarget "gosert" (some least)]

def parse? (text : String) : Option Filter :=
  ((text.splitOn ",").filter (!·.isEmpty)).mapM Directive.ofText?

def decisive? (filter : Filter) (e : Event) : Option Directive :=
  (filter.filter (·.appliesTo e)).foldl
    (fun best d =>
      match best with
      | some c => if d.goesBefore c then some d else best
      | none => some d)
    none

def shows (filter : Filter) (e : Event) : Bool :=
  match (filter.decisive? e).bind Directive.least with
  | some least => least.rank ≤ e.level.rank
  | none => false

end Filter

end DocMatch
