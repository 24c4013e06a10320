import DocMatch.Expression.Callee
import DocMatch.Json.Fault
import DocMatch.Node
import DocMatch.Timestamp

/-!
What stops a match. A difference between two documents is no error; an error says that the expected
side cannot be read, that the two sides cannot be compared, or that a file cannot be had. Every
error belongs to a category with a fixed code, by which callers tell errors apart.
-/

namespace DocMatch

inductive Category where
  | typeMismatch
  | syntaxError
  | schemaViolation
  | undefinedVariable
  | invalidInput
  | io
  deriving DecidableEq, Repr

namespace Category

def all : List Category :=
  [typeMismatch, syntaxError, schemaViolation, undefinedVariable, invalidInput, io]

def name : Category → String
  | typeMismatch => "TypeMismatch"
  | syntaxError => "Syntax"
  | schemaViolation => "SchemaViolation"
  | undefinedVariable => "UndefinedVariable"
  | invalidInput => "InvalidInput"
  | io => "Io"

def code : Category → String
  | typeMismatch => "ERR_TYPE_MISMATCH"
  | syntaxError => "ERR_SYNTAX"
  | schemaViolation => "ERR_SCHEMA_VIOLATION"
  | undefinedVariable => "ERR_UNDEFINED_VARIABLE"
  | invalidInput => "ERR_INVALID_INPUT"
  | io => "ERR_IO"

end Category

inductive DocumentFault where
  | malformed (cause : Json.Cause) (place : Json.Position)
  | undetermined (raw : Bytes)
  | rootNotObject (kind : Kind)
  deriving DecidableEq, Repr

def DocumentFault.text : DocumentFault → String
  | malformed cause place =>
    cause.text ++ " at line " ++ toString place.line ++ " column " ++ toString place.column
  | undetermined raw => "cannot determine value type of '" ++ Utf8.lossy raw ++ "'"
  | rootNotObject kind => "document root must be an Object, was " ++ kind.name

inductive ExpressionFault where
  | shape (callee : Callee)
  | arity (comparison : Comparison) (given : Nat)
  | deltaOutOfRange (digits : String)
  deriving DecidableEq, Repr

def ExpressionFault.text : ExpressionFault → String
  | shape callee => "expected " ++ callee.usage
  | arity comparison given =>
    "comparator '" ++ comparison.symbol ++ "' takes " ++ toString comparison.arity
      ++ " argument(s), got " ++ toString given
  | deltaOutOfRange digits => "delta '" ++ digits ++ "' is out of range"

inductive FileFault where
  | missing
  | notDirectory
  | directory
  | nameTooLong
  | other (text : String)
  deriving DecidableEq, Repr

def FileFault.text : FileFault → String
  | missing => "No such file or directory (os error 2)"
  | notDirectory => "Not a directory (os error 20)"
  | directory => "Is a directory (os error 21)"
  | nameTooLong => "File name too long (os error 36)"
  | other text => text

inductive MatchError where
  | typeMismatch (expected actual : Kind)
  /-- A number met something other than a text or a number. -/
  | numberAssertionType (expected : Kind)
  | notApplicable (callee : Callee) (actual : Kind)
  | numberAssertionRequired (input : String)
  | arrayAssertionNotAllowed (input : String)
  | arrayAssertionType (expected : Kind)
  | invalidExpression (input : String) (fault : ExpressionFault)
  | invalidTimestamp (input : String) (fault : TimestampFault)
  | invalidNumber (input : String)
  | invalidBoolean (input : String)
  | invalidDocument (fault : DocumentFault)
  | nonPrimitiveElement (kind : Kind)
  /-- The expected array holds scalars and objects, or arrays. -/
  | mixedArray
  | missingKey (position : Nat)
  | conflictingKeys (position : Nat)
  | mixedKeys
  | invalidIndex (found : Node)
  | invalidIdentity (found : Node)
  | identityNameMismatch (first other : String)
  | duplicateIndex (index : Nat)
  | duplicateIdentity (name value : String)
  | missingIdentity (name : String) (position : Nat)
  | undefinedVariable (name : String)
  | invalidTolerance (tolerance : Binary64)
  | unreadable (path : String) (fault : FileFault)
  deriving DecidableEq, Repr

namespace MatchError

def category : MatchError → Category
  | typeMismatch .. | numberAssertionType _ | notApplicable .. | numberAssertionRequired _
  | arrayAssertionType _ => .typeMismatch
  | invalidExpression .. | invalidTimestamp .. | invalidNumber _ | invalidBoolean _
  | invalidDocument _ => .syntaxError
  | nonPrimitiveElement _ | mixedArray | missingKey _ | conflictingKeys _ | mixedKeys
  | invalidIndex _ | invalidIdentity _ | identityNameMismatch .. | duplicateIndex _
  | duplicateIdentity .. | missingIdentity .. => .schemaViolation
  | undefinedVariable _ => .undefinedVariable
  | arrayAssertionNotAllowed _ | invalidTolerance _ => .invalidInput
  | unreadable .. => .io

def message : MatchError → String
  | typeMismatch expected actual =>
    "path has type " ++ actual.name ++ " but assertion uses " ++ expected.name
  | numberAssertionType expected =>
    "path has type Number but assertion uses " ++ expected.name
      ++ ". Allowed types are String or Number"
  | notApplicable callee actual =>
    callee.name ++ " cannot be applied to a value of type " ++ actual.name
  | numberAssertionRequired input =>
    "path has type Number but assertion ('" ++ input
      ++ "') does not have the correct format. Must be \x7b\x7bBeNumerically(...)\x7d\x7d"
  | arrayAssertionNotAllowed input =>
    "array type assertion can only use functions [" ++ Callee.beEmpty.usage ++ " "
      ++ Callee.not.usage ++ "], got '" ++ input ++ "'"
  | arrayAssertionType expected =>
    "unsupported expected value type '" ++ expected.name ++ "' for Array type"
  | invalidExpression input fault => "invalid expression '" ++ input ++ "': " ++ fault.text
  | invalidTimestamp input fault => "invalid timestamp '" ++ input ++ "': " ++ fault.text
  | invalidNumber input => "invalid number '" ++ input ++ "'"
  | invalidBoolean input => "expected bool but got " ++ input
  | invalidDocument fault => "invalid document: " ++ fault.text
  | nonPrimitiveElement kind =>
    "array should contain base type only but got " ++ kind.name ++ " type"
  | mixedArray =>
    "array type assertion must all be base data type or all object type, not a mixture of both"
  | missingKey position =>
    "element " ++ toString position ++ " must have field '_gst_index' or '_gst_id'"
  | conflictingKeys position =>
    "element " ++ toString position ++ " cannot have both '_gst_index' and '_gst_id'"
  | mixedKeys => "cannot have some elements with '_gst_index' and some with '_gst_id'"
  | invalidIndex found =>
    "'_gst_index' field must be a non-negative integer Number, was " ++ found.describe
  | invalidIdentity found =>
    "'_gst_id' field must be a String of format 'key=value', was " ++ found.describe
  | identityNameMismatch first other =>
    "all elements in the same array must have the same '_gst_id' key part, found '" ++ first
      ++ "' and '" ++ other ++ "'"
  | duplicateIndex index =>
    "'_gst_index' " ++ toString index ++ " is used by more than one element"
  | duplicateIdentity name value =>
    "'_gst_id' " ++ name ++ "=" ++ value ++ " is used by more than one element"
  | missingIdentity name position =>
    "object array assertion must have a key '" ++ name
      ++ "' for each actual element, missing at position " ++ toString position
  | undefinedVariable name => "variable '" ++ name ++ "' undefined"
  | invalidTolerance tolerance =>
    "invalid configuration: numeric tolerance must be a finite non-negative number, was "
      ++ tolerance.toPlain
  | unreadable path fault => "failed to read '" ++ path ++ "': " ++ fault.text

end MatchError

end DocMatch
