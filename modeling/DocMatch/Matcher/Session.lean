import DocMatch.Matcher.Basic

/-!
Sessions: one matcher and a series of questions put to it. Only a call of `run` and an accepted
configuration change the matcher; a refused configuration ends the session.
-/

namespace DocMatch.Matcher

inductive Step where
  | run (actual : Bytes)
  | evaluate (actual : Bytes)
  | messages
  | last
  | expected
  | tolerance
  | configure (config : Config)

inductive Answer where
  | ran (result : Except Report Bool)
  | verdict (v : Verdict)
  | messages (failure negated : String)
  | last (v : Option Verdict)
  | expected (document : Bytes)
  | tolerance (x : Binary64)
  | configured
  | refused (report : Report)

def step (m : Matcher) : Step → Traced (Answer × Option Matcher)
  | .run actual => (m.run actual).map fun (result, m') => (.ran result, some m')
  | .evaluate actual => (m.evaluate actual).map fun v => (.verdict v, some m)
  | .messages => .pure (.messages m.failureMessage m.negatedFailureMessage, some m)
  | .last => .pure (.last m.last, some m)
  | .expected => .pure (.expected m.expected, some m)
  | .tolerance => .pure (.tolerance m.config.tolerance, some m)
  | .configure config =>
    match m.withConfig config with
    | .ok m' => .pure (.configured, some m')
    | .error report => .pure (.refused report, none)

def steps (m : Matcher) : List Step → Traced (List Answer × Option Matcher)
  | [] => .pure ([], some m)
  | s :: rest =>
    (m.step s).bind fun (answer, next) =>
      match next with
      | none => .pure ([answer], none)
      | some m' => (m'.steps rest).map fun (answers, last) => (answer :: answers, last)

/-- A session from the making of its matcher on. Without a matcher there are no answers. -/
def session (built : Traced (Except Report Matcher)) (steps : List Step) :
    Traced (Except Report (List Answer × Option Matcher)) :=
  built.bind fun
    | .ok m => (m.steps steps).map .ok
    | .error report => .pure (.error report)

end DocMatch.Matcher
