import DocMatch.Utf8

/-!
Nodes of a document: a kind and the bytes that write the value. A string's node keeps its quotation
marks, a container's node its brackets, so a node is itself a document.
-/

namespace DocMatch

inductive Kind where
  | absent
  | string
  | number
  | boolean
  | null
  | object
  | array
  deriving DecidableEq, Repr

namespace Kind

def all : List Kind := [absent, string, number, boolean, null, object, array]

def name : Kind → String
  | absent => "NotExist"
  | string => "String"
  | number => "Number"
  | boolean => "Boolean"
  | null => "Null"
  | object => "Object"
  | array => "Array"

/-- The kinds that are compared by value alone inside an array. -/
def isPrimitive : Kind → Bool
  | string | number | boolean | null => true
  | absent | object | array => false

def ofFirstByte? (b : UInt8) : Option Kind :=
  if b = byte '"' then some string
  else if b = byte '{' then some object
  else if b = byte '[' then some array
  else if b = byte 't' ∨ b = byte 'f' then some boolean
  else if b = byte 'n' then some null
  else if b = byte '-' ∨ Bytes.isDigit b then some number
  else none

end Kind

structure Node where
  kind : Kind
  raw : Bytes
  deriving DecidableEq, Repr

namespace Node

/-- What stands for a field that is not there. -/
def absent : Node := ⟨.absent, []⟩

def isPrimitive (n : Node) : Bool := n.kind.isPrimitive

def text (n : Node) : String := Utf8.lossy n.raw

def describe (n : Node) : String := "type = " ++ n.kind.name ++ ", value = " ++ n.text

def describeAll (nodes : List Node) : String :=
  "[" ++ String.intercalate "|" (nodes.map describe) ++ "]"

def ofRaw? (raw : Bytes) : Option Node :=
  ((raw.find? (fun b => !Bytes.isSpace b)).bind Kind.ofFirstByte?).map (⟨·, raw⟩)

theorem ofRaw?_raw {raw : Bytes} {n : Node} (h : ofRaw? raw = some n) : n.raw = raw := by
  simp only [ofRaw?, Option.map_eq_some_iff] at h
  obtain ⟨_, -, rfl⟩ := h
  rfl

end Node

end DocMatch
