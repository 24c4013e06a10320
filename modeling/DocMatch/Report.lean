import DocMatch.Error

/-!
Errors as a caller sees them: the category, the operation and the path at which the error surfaced,
where they are known, and a message.
-/

namespace DocMatch

structure Report where
  category : Category
  operation : Option String
  path : Option String
  message : String
  deriving DecidableEq, Repr

namespace Report

def ofCategory (category : Category) : Report := ⟨category, none, none, ""⟩

def withOperation (r : Report) (operation : String) : Report :=
  { r with operation := some operation }

def withPath (r : Report) (path : String) : Report := { r with path := some path }

def withMessage (r : Report) (message : String) : Report := { r with message := message }

def ofError (e : MatchError) : Report := (ofCategory e.category).withMessage e.message

def code (r : Report) : String := r.category.code

def text (r : Report) : String :=
  "[" ++ r.code ++ "]"
    ++ (match r.operation with
        | some operation => " in operation '" ++ operation ++ "'"
        | none => "")
    ++ (if r.message.isEmpty then "" else ": " ++ r.message)
    ++ (match r.path with
        | some path => " (path: " ++ path ++ ")"
        | none => "")

end Report

end DocMatch
