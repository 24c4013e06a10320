import DocMatch.Event.Basic

/-!
Looking through what was noted: how many events of a name there are, which belong to one call of a
matcher, and whether an operation got to a certain point.
-/

namespace DocMatch.Event

def isNamed (name : String) (e : Event) : Bool := e.name? = some name

def isMatchStart : Event → Bool
  | started .matching => true
  | _ => false

/-- How many events say that they belong to each call, calls in order. Events before the first call
belong to none. -/
def countsPerMatch (events : List Event) : List Nat :=
  (events.foldl
    (fun counts e =>
      if e.isMatchStart then 1 :: counts
      else
        match counts with
        | n :: rest => (if e.isOfMatch then n + 1 else n) :: rest
        | [] => [])
    []).reverse

def complaint? (operation name : String) (events : List Event) : Option String :=
  if events.any fun e => e.operation?.map Operation.name = some operation && e.isNamed name
  then none
  else some ("Expected event op=" ++ operation ++ " event=" ++ name ++ " not found in "
    ++ toString events.length ++ " captured events")

end DocMatch.Event
