import DocMatch.Document

/-!
How an element of an expected array of objects says which actual element it stands for: by a
reserved field, which holds either a position or an identity `name=value`. The reserved field is
taken out before the element is compared. All elements of an array do it in the same way, and no two
name the same counterpart.
-/

namespace DocMatch.Correlation

def indexField : String := "_gst_index"

def identityField : String := "_gst_id"

inductive Key where
  | index (position : Nat)
  | identity (name value : String)
  deriving DecidableEq, Repr

namespace Key

def field : Key → String
  | index _ => indexField
  | identity .. => identityField

def segment : Key → String
  | index position => "[" ++ toString position ++ "]"
  | identity name value => "." ++ name ++ "=" ++ value

/-- What elements are ordered by: positions ascend, and identities stay as they were declared. -/
def rank : Key → Nat
  | index position => position
  | identity .. => 0

end Key

/-- The position that a text writes: digits, perhaps after a plus sign, whose value fits a word. -/
def position? (text : List Char) : Option Nat :=
  let digits := match text with
    | '+' :: t => t
    | t => t
  if digits.isEmpty || !digits.all Char.isDigit then none
  else
    let n := Text.digitsToNat digits
    if n < 1 <<< 64 then some n else none

def indexOf (n : Node) : Except MatchError Key :=
  match if n.kind = .number then position? (Text.trim n.text.toList) else none with
  | some position => .ok (.index position)
  | none => .error (.invalidIndex n)

def identity? (text : List Char) : Option Key :=
  let name := text.takeWhile (· ≠ '=')
  match text.dropWhile (· ≠ '=') with
  | _ :: value =>
    if name.isEmpty || value.contains '=' then none
    else some (.identity (String.ofList name) (String.ofList value))
  | [] => none

def identityOf (n : Node) : Except MatchError Key :=
  if n.kind = .string then do
    match identity? (← n.stringValue).toList with
    | some key => pure key
    | none => throw (.invalidIdentity n)
  else .error (.invalidIdentity n)

def readKey (element : Node) (position : Nat) : Except MatchError Key := do
  let fields ← Document.fields element.raw
  match fields.get? indexField, fields.get? identityField with
  | some _, some _ => throw (.conflictingKeys position)
  | none, none => throw (.missingKey position)
  | some n, none => indexOf n
  | none, some n => identityOf n

structure Keyed where
  key : Key
  raw : Bytes
  deriving DecidableEq, Repr

def Keyed.node (k : Keyed) : Node := ⟨.object, k.raw⟩

def agree : Key → Key → Except MatchError Unit
  | .index _, .index _ => .ok ()
  | .identity first _, .identity other _ =>
    if first = other then .ok () else .error (.identityNameMismatch first other)
  | _, _ => .error .mixedKeys

def duplicate : Key → MatchError
  | .index position => .duplicateIndex position
  | .identity name value => .duplicateIdentity name value

def checkNext (earlier : List Key) (key : Key) : Except MatchError Unit := do
  if let some first := earlier.head? then agree first key
  if key ∈ earlier then throw (duplicate key)

/-- The keyed elements in the order declared, after elements with the keys `earlier`. -/
def keyedAfter (earlier : List Key) : List Node → Except MatchError (List Keyed)
  | [] => .ok []
  | element :: rest => do
    let key ← readKey element earlier.length
    checkNext earlier key
    let raw ← Document.withoutField element.raw key.field
    let more ← keyedAfter (earlier ++ [key]) rest
    pure (⟨key, raw⟩ :: more)

def keyed (elements : List Node) : Except MatchError (List Keyed) :=
  (keyedAfter [] elements).map (·.mergeSort fun a b => a.key.rank ≤ b.key.rank)

def identityTexts (name : String) (position : Nat) : List Node → Except MatchError (List String)
  | [] => .ok []
  | element :: rest => do
    if element.kind ≠ .object then throw (.missingIdentity name position)
    match (← Document.fields element.raw).get? name with
    | none => throw (.missingIdentity name position)
    | some field =>
      let text ← field.keyText
      let more ← identityTexts name (position + 1) rest
      pure (text :: more)

end DocMatch.Correlation
