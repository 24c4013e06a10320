import DocMatch.Json.Literal
import DocMatch.Json.Number

/-!
Passing over a value. Nothing is built: all that is wanted is where the value ends, or the first
fault in it. Nesting may be as deep as the document is long.
-/

namespace DocMatch.Json

def skipWord {s : Bytes} : (word : Bytes) → (r : Rest s) → Except Fault (Rest s)
  | [], r => .ok r
  | w :: word, r =>
    match h : r.bytes with
    | [] => .error (.here .endInValue [])
    | b :: t => if b = w then skipWord word (r.next h) else .error (.here .expectedIdent t)

def skipColon {s : Bytes} (r : Rest s) : Except Fault (Rest s) :=
  match h : r.skipBlanks.bytes with
  | [] => .error (.ahead .endInObject [])
  | b :: t =>
    if b = byte ':' then .ok (r.skipBlanks.next h) else .error (.ahead .expectedColon (b :: t))

def skipName : (s : Bytes) → Except Fault (Rest s)
  | [] => .error (.ahead .endInObject [])
  | b :: t =>
    if b = byte '"' then do skipColon (← closeString (.tail b t))
    else .error (.ahead .keyNotString (b :: t))

mutual

def skipValue (s : Bytes) : Except Fault (Rest s) :=
  match s with
  | [] => .error (.ahead .endInValue [])
  | b :: t =>
    let r := Rest.tail b t
    if b = byte '"' then closeString r
    else if b = byte 't' then skipWord (Bytes.ofString "rue") r
    else if b = byte 'f' then skipWord (Bytes.ofString "alse") r
    else if b = byte 'n' then skipWord (Bytes.ofString "ull") r
    else if b = byte '-' ∨ Bytes.isDigit b then
      (readNumber .invalidNumber (b :: t)).map (·.2)
    else if b = byte '[' then
      match h : r.skipBlanks.bytes with
      | [] => .error (.ahead .endInList [])
      | c :: _ => if c = byte ']' then .ok (r.skipBlanks.next h) else skipElements r.skipBlanks
    else if b = byte '{' then
      match h : r.skipBlanks.bytes with
      | [] => .error (.ahead .endInObject [])
      | c :: _ => if c = byte '}' then .ok (r.skipBlanks.next h) else skipMembers r.skipBlanks
    else .error (.ahead .expectedValue (b :: t))
termination_by (s.length, 0)
decreasing_by
  all_goals exact Prod.Lex.left _ _ (Rest.length_lt _)

def skipElements {s : Bytes} (r : Rest s) : Except Fault (Rest s) :=
  match skipValue r.bytes with
  | .error f => .error f
  | .ok q =>
    let after := (r.andThen q).skipBlanks
    match h : after.bytes with
    | [] => .error (.ahead .endInList [])
    | b :: t =>
      if b = byte ',' then skipElements (after.next h).skipBlanks
      else if b = byte ']' then .ok (after.next h)
      else .error (.ahead .expectedListEnd (b :: t))
termination_by (r.bytes.length, 1)
decreasing_by
  · exact Prod.Lex.right _ (by decide)
  · exact Prod.Lex.left _ _ (r.skipBlanks_next_lt q h)

def skipMembers {s : Bytes} (r : Rest s) : Except Fault (Rest s) :=
  match skipName r.bytes with
  | .error f => .error f
  | .ok name =>
    match skipValue name.skipBlanks.bytes with
    | .error f => .error f
    | .ok q =>
      let after := (r.andThen (name.skipBlanks.andThen q)).skipBlanks
      match h : after.bytes with
      | [] => .error (.ahead .endInObject [])
      | b :: t =>
        if b = byte ',' then skipMembers (after.next h).skipBlanks
        else if b = byte '}' then .ok (after.next h)
        else .error (.ahead .expectedObjectEnd (b :: t))
termination_by (r.bytes.length, 1)
decreasing_by
  · exact Prod.Lex.left _ _ name.skipBlanks.length_lt
  · exact Prod.Lex.left _ _ (r.skipBlanks_next_lt _ h)

end

end DocMatch.Json
