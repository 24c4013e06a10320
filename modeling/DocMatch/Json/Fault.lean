import DocMatch.Bytes
import DocMatch.Binary64.Shortest
import DocMatch.Text.Quoted

/-!
What can be wrong with a document, and where. A reader knows only the bytes ahead of it, so a fault
records how many bytes were left at the point it names; the line and column follow once the whole
document is at hand.
-/

namespace DocMatch.Json

inductive Shape where
  | mapping
  | sequence
  | string
  | diagnostic
  deriving DecidableEq, Repr

def Shape.phrase : Shape → String
  | mapping => "a map"
  | sequence => "a sequence"
  | string => "a string"
  | diagnostic => "struct Diagnostic"

inductive Found where
  | null
  | boolean (value : Bool)
  | integer (value : Int)
  | real (value : Binary64)
  | string (text : String)
  | sequence
  | mapping
  deriving DecidableEq, Repr

def Found.phrase : Found → String
  | null => "null"
  | boolean value => "boolean `" ++ (if value then "true" else "false") ++ "`"
  | integer value => "integer `" ++ toString value ++ "`"
  | real value => "floating point `" ++ value.toScientific ++ "`"
  | string text => "string " ++ Text.quoted text
  | sequence => "sequence"
  | mapping => "map"

inductive Cause where
  | endInValue
  | endInString
  | endInList
  | endInObject
  | expectedValue
  | expectedIdent
  | expectedColon
  | expectedListEnd
  | expectedObjectEnd
  | keyNotString
  | invalidNumber
  | numberOutOfRange
  | invalidEscape
  | controlCharacter
  | invalidUnicode
  | loneSurrogate
  | endOfHexEscape
  | trailingComma
  | trailingCharacters
  | wrongShape (found : Found) (wanted : Shape)
  | missingMember (name : String)
  | repeatedMember (name : String)
  | tooFewElements (count : Nat)
  deriving DecidableEq, Repr

def Cause.text : Cause → String
  | endInValue => "EOF while parsing a value"
  | endInString => "EOF while parsing a string"
  | endInList => "EOF while parsing a list"
  | endInObject => "EOF while parsing an object"
  | expectedValue => "expected value"
  | expectedIdent => "expected ident"
  | expectedColon => "expected `:`"
  | expectedListEnd => "expected `,` or `]`"
  | expectedObjectEnd => "expected `,` or `\x7d`"
  | keyNotString => "key must be a string"
  | invalidNumber => "invalid number"
  | numberOutOfRange => "number out of range"
  | invalidEscape => "invalid escape"
  | controlCharacter => "control character (\\u0000-\\u001F) found while parsing a string"
  | invalidUnicode => "invalid unicode code point"
  | loneSurrogate => "lone leading surrogate in hex escape"
  | endOfHexEscape => "unexpected end of hex escape"
  | trailingComma => "trailing comma"
  | trailingCharacters => "trailing characters"
  | wrongShape found wanted => "invalid type: " ++ found.phrase ++ ", expected " ++ wanted.phrase
  | missingMember name => "missing field `" ++ name ++ "`"
  | repeatedMember name => "duplicate field `" ++ name ++ "`"
  | tooFewElements count =>
    "invalid length " ++ toString count ++ ", expected struct Diagnostic with 3 elements"

/-- A fault and the number of bytes after the point it names. -/
structure Fault where
  cause : Cause
  remaining : Nat
  deriving DecidableEq, Repr

def Fault.here (cause : Cause) (rest : Bytes) : Fault := ⟨cause, rest.length⟩

def Fault.ahead (cause : Cause) (rest : Bytes) : Fault := ⟨cause, rest.length - 1⟩

/-- A place in a document, lines counted from one and the bytes of a line before it. -/
structure Position where
  line : Nat
  column : Nat
  deriving DecidableEq, Repr

def Position.after (read : Bytes) : Position where
  line := 1 + read.count (byte '\n')
  column := (read.reverse.takeWhile (· != byte '\n')).length

def Fault.position (fault : Fault) (document : Bytes) : Position :=
  .after (document.take (document.length - fault.remaining))

def Fault.message (fault : Fault) (document : Bytes) : String :=
  let place := fault.position document
  fault.cause.text ++ " at line " ++ toString place.line ++ " column " ++ toString place.column

end DocMatch.Json
