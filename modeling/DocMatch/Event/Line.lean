import DocMatch.Event.Basic
import DocMatch.Json.Literal
import DocMatch.Text.Quoted

/-!
Events written out, for readers as a line and for programs as a record. What is known outside only
is handed in.
-/

namespace DocMatch

/-- What to show for the time of an event, for the duration of an operation, in milliseconds, and for
the identifier of the call. -/
structure Blanks where
  time : String
  elapsed : String
  matchId : String

namespace FieldValue

variable (blanks : Blanks)

def line : FieldValue → String
  | quoted text => Text.quoted text
  | plain text => text
  | count n => toString n
  | flag b => if b then "true" else "false"
  | elapsed => blanks.elapsed
  | matchId => Text.quoted blanks.matchId

def text : FieldValue → String
  | quoted text => text
  | matchId => blanks.matchId
  | v => line blanks v

def member (v : FieldValue) : Bytes :=
  match v with
  | quoted text | plain text => Json.writeString text
  | matchId => Json.writeString blanks.matchId
  | v => Bytes.ofString (line blanks v)

end FieldValue

namespace Event

def levelColumn (level : Level) : String :=
  "".pushn ' ' (5 - level.name.length) ++ level.name

def line (blanks : Blanks) (e : Event) : String :=
  blanks.time ++ " " ++ levelColumn e.level ++ " " ++ e.target ++ ": " ++
    String.intercalate " " (e.message?.toList ++
      e.fields.map fun (name, value) => name ++ "=" ++ value.line blanks)

def record (blanks : Blanks) (e : Event) : Bytes :=
  let object (members : List (String × Bytes)) : Bytes :=
    byte '{' :: [byte ','].intercalate
      (members.map fun (name, value) => Json.writeString name ++ byte ':' :: value) ++ [byte '}']
  object
    [("timestamp", Json.writeString blanks.time), ("level", Json.writeString e.level.name),
      ("fields", object (e.message?.toList.map (fun m => ("message", Json.writeString m)) ++
        e.fields.map fun (name, value) => (name, value.member blanks))),
      ("target", Json.writeString e.target)]

end Event

end DocMatch
