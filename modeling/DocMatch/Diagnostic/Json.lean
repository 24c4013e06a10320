import DocMatch.Diagnostic.Basic
import DocMatch.Json.Reader

/-!
Diagnostics as documents: written as an object of three members, and read from such an object or
from a list of the three texts in their order. Members of other names are passed over.
-/

namespace DocMatch.Diagnostic

open Json

inductive Part where
  | path
  | expected
  | actual
  deriving DecidableEq, Repr

namespace Part

def all : List Part := [path, expected, actual]

def name : Part → String
  | path => "path"
  | expected => "expected"
  | actual => "actual"

def ofName? (name : String) : Option Part := all.find? (·.name = name)

end Part

abbrev Parts := Part → Option String

def Parts.put (parts : Parts) (p : Part) (text : String) : Parts :=
  fun p' => if p' = p then some text else parts p'

def ofParts (parts : Parts) : Except Part Diagnostic :=
  match parts .path, parts .expected, parts .actual with
  | none, _, _ => .error .path
  | _, none, _ => .error .expected
  | _, _, none => .error .actual
  | some path, some expected, some actual => .ok { path, expected, actual }

/-- The fault of a part that is named again: where the object could end there, its brace counts as
read. -/
def repeated (p : Part) {s : Bytes} (r : Rest s) : Fault :=
  let rest := r.skipBlanks.bytes
  .here (.repeatedMember p.name) (if rest.head? = some (byte '}') then rest.tail else rest)

def readParts {s : Bytes} (parts : Parts) (first : Bool) (r : Rest s) :
    Except Fault (Parts × Rest s) :=
  match nextItem .object readName first r.skipBlanks.bytes with
  | .error f => .error f
  | .ok (.close q) => .ok (parts, r.skipBlanks.andThen q)
  | .ok (.item name q) =>
    match Part.ofName? name with
    | none =>
      match readValue readIgnored q with
      | .error f => .error f
      | .ok (_, e) => readParts parts false (r.skipBlanks.andThen e)
    | some p =>
      if (parts p).isSome then .error (repeated p q)
      else
        match readValue readText q with
        | .error f => .error f
        | .ok (text, e) => readParts (parts.put p text) false (r.skipBlanks.andThen e)
termination_by r.bytes.length
decreasing_by
  all_goals exact Nat.lt_of_lt_of_le (r.skipBlanks.andThen_length_lt e) r.skipBlanks_length_le

def readMembers : Reader Diagnostic
  | [] => .error (misfit .diagnostic [])
  | b :: t => do
    let (parts, r) ← readParts (fun _ => none) true (Rest.tail b t)
    match ofParts parts with
    | .ok d => pure (d, r)
    | .error p => throw (.here (.missingMember p.name) r.bytes)

def closeList {s : Bytes} (r : Rest s) : Except Fault (Rest s) :=
  match h : r.skipBlanks.bytes with
  | [] => .error (.ahead .endInList [])
  | b :: _ =>
    if b = byte ']' then .ok (r.skipBlanks.next h)
    else if b = byte ',' then
      let rest := (r.skipBlanks.next h).skipBlanks.bytes
      .error (.ahead (if rest.head? = some (byte ']') then .trailingComma else .trailingCharacters)
        rest)
    else .error (.ahead .trailingCharacters r.skipBlanks.bytes)

def readTexts {s : Bytes} (read : List String) : (wanted : Nat) → (r : Rest s) →
    Except Fault (List String × Rest s)
  | 0, r => (closeList r).map fun e => (read, e)
  | wanted + 1, r =>
    match nextItem .list readText read.isEmpty r.skipBlanks.bytes with
    | .error f => .error f
    | .ok (.close q) => .error (.here (.tooFewElements read.length) q.bytes)
    | .ok (.item text q) => readTexts (read ++ [text]) wanted (r.skipBlanks.andThen q)

def readElements : Reader Diagnostic
  | [] => .error (misfit .diagnostic [])
  | b :: t => do
    let (texts, r) ← readTexts [] 3 (Rest.tail b t)
    match texts with
    | [path, expected, actual] => pure ({ path, expected, actual }, r)
    | _ => throw (.here (.tooFewElements texts.length) r.bytes)

def read : Reader Diagnostic := fun s =>
  if s.head? = some (byte '{') then readMembers s
  else if s.head? = some (byte '[') then readElements s
  else .error (misfit .diagnostic s)

def ofDocument (document : Bytes) : Except Fault Diagnostic := readDocument read document

def toDocument (d : Diagnostic) : Bytes :=
  let member (p : Part) (text : String) := writeString p.name ++ byte ':' :: writeString text
  byte '{' :: member .path d.path ++ byte ',' :: member .expected d.expected
    ++ byte ',' :: member .actual d.actual ++ [byte '}']

end DocMatch.Diagnostic
