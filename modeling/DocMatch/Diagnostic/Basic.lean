/-!
Where two documents differ, and what stands there on either side.
-/

namespace DocMatch

structure Diagnostic where
  path : String
  expected : String
  actual : String
  deriving DecidableEq, Repr

namespace Diagnostic

def text (d : Diagnostic) : String :=
  "path = " ++ d.path ++ ", expected = " ++ d.expected ++ ", actual = " ++ d.actual

end Diagnostic

end DocMatch
