import DocMatch.Json.Misfit

/-!
Readers of values of a wanted shape. A list and an object are read alike: items between brackets,
parted by commas, the reader of an item given. Main statement: `items_forall`, every item was read
from some part of the input, so what holds of all that the item's reader returns holds of it.
-/

namespace DocMatch.Json

/-- Reads a value off the front of its input, where blanks no longer stand. -/
abbrev Reader (α : Type) := (s : Bytes) → Except Fault (α × Rest s)

/-- The closing bracket of a compound value, and the faults of one that ends too early or goes on
with neither a comma nor the bracket. -/
structure Bracket where
  close : UInt8
  atEnd : Cause
  expected : Cause

def Bracket.list : Bracket := ⟨byte ']', .endInList, .expectedListEnd⟩

def Bracket.object : Bracket := ⟨byte '}', .endInObject, .expectedObjectEnd⟩

inductive Item (s : Bytes) (α : Type) where
  | close (r : Rest s)
  | item (a : α) (r : Rest s)

def itemAfterComma {α : Type} (bracket : Bracket) (read : Reader α) {s : Bytes} (r : Rest s) :
    Except Fault (Item s α) :=
  match r.bytes.head? with
  | none => .error (.ahead .endInValue [])
  | some b =>
    if b = bracket.close then .error (.ahead .trailingComma r.bytes)
    else (read r.bytes).map fun (a, q) => .item a (r.andThen q)

/-- The next item, or the end, before which no comma may stand if it is not the first. -/
def nextItem {α : Type} (bracket : Bracket) (read : Reader α) (first : Bool) :
    (s : Bytes) → Except Fault (Item s α)
  | [] => .error (.ahead bracket.atEnd [])
  | b :: t =>
    if b = bracket.close then .ok (.close (.tail b t))
    else if first then (read (b :: t)).map fun (a, q) => .item a q
    else if b = byte ',' then itemAfterComma bracket read (Rest.tail b t).skipBlanks
    else .error (.ahead bracket.expected (b :: t))

def items {α : Type} (bracket : Bracket) (read : Reader α) (first : Bool) {s : Bytes}
    (r : Rest s) : Except Fault (List α × Rest s) :=
  match nextItem bracket read first r.skipBlanks.bytes with
  | .error f => .error f
  | .ok (.close q) => .ok ([], r.skipBlanks.andThen q)
  | .ok (.item a q) =>
    match items bracket read false (r.skipBlanks.andThen q) with
    | .error f => .error f
    | .ok (more, e) => .ok (a :: more, e)
termination_by r.bytes.length
decreasing_by
  exact Nat.lt_of_lt_of_le (r.skipBlanks.andThen_length_lt q) r.skipBlanks_length_le

theorem nextItem_item {α : Type} {bracket : Bracket} {read : Reader α} {first : Bool} {s : Bytes}
    {a : α} {q : Rest s} (h : nextItem bracket read first s = .ok (.item a q)) :
    ∃ t, t <:+ s ∧ ∃ e, read t = .ok (a, e) := by
  cases s with
  | nil => simp [nextItem] at h
  | cons b t =>
    rw [nextItem] at h
    split at h
    · simp at h
    · split at h
      · refine ⟨b :: t, List.suffix_refl _, ?_⟩
        cases hr : read (b :: t) with
        | error f => simp [hr, Except.map] at h
        | ok p =>
          obtain ⟨a', e⟩ := p
          simp only [hr, Except.map, Except.ok.injEq, Item.item.injEq] at h
          exact ⟨e, by rw [h.1]⟩
      · split at h
        · refine ⟨(Rest.tail b t).skipBlanks.bytes, Rest.bytes_suffix _, ?_⟩
          unfold itemAfterComma at h
          split at h
          · simp at h
          · split at h
            · simp at h
            · cases hr : read (Rest.tail b t).skipBlanks.bytes with
              | error f => simp [hr, Except.map] at h
              | ok p =>
                obtain ⟨a', e⟩ := p
                simp only [hr, Except.map, Except.ok.injEq, Item.item.injEq] at h
                exact ⟨e, by rw [h.1]⟩
        · simp at h

theorem items_forall {α : Type} {bracket : Bracket} {read : Reader α} {P : α → Prop} {s : Bytes}
    (first : Bool) (r : Rest s) (hread : ∀ t a e, t <:+ r.bytes → read t = .ok (a, e) → P a)
    {as : List α} {e : Rest s} (h : items bracket read first r = .ok (as, e)) : ∀ a ∈ as, P a := by
  fun_induction items bracket read first r generalizing as e with
  | case1 => simp at h
  | case2 first r q =>
    simp only [Except.ok.injEq, Prod.mk.injEq] at h
    simp [← h.1]
  | case3 => simp at h
  | case4 first r a q hq more e' hm ih =>
    simp only [Except.ok.injEq, Prod.mk.injEq] at h
    obtain ⟨rfl, -⟩ := h
    have hb : r.skipBlanks.bytes <:+ r.bytes := List.dropWhile_suffix _
    obtain ⟨t, ht, e'', hr⟩ := nextItem_item hq
    intro x hx
    rcases List.mem_cons.1 hx with rfl | hx
    · exact hread t x e'' (ht.trans hb) hr
    · exact ih (fun t' a' e₁ ht' hr' => hread t' a' e₁ (ht'.trans (q.bytes_suffix.trans hb)) hr')
        hm x hx

def readName : Reader String
  | [] => .error (.ahead .endInValue [])
  | b :: t =>
    if b = byte '"' then readString (.tail b t) else .error (.ahead .keyNotString (b :: t))

def readValue {α : Type} (read : Reader α) {s : Bytes} (name : Rest s) :
    Except Fault (α × Rest s) :=
  match skipColon name with
  | .error f => .error f
  | .ok colon =>
    match read colon.skipBlanks.bytes with
    | .error f => .error f
    | .ok (value, e) => .ok (value, colon.skipBlanks.andThen e)

def readMember {α : Type} (read : Reader α) : Reader (String × α) := fun s =>
  match readName s with
  | .error f => .error f
  | .ok (name, q) => (readValue read q).map fun (value, e) => ((name, value), e)

def readObject {α : Type} (read : Reader α) : Reader (List (String × α))
  | [] => .error (misfit .mapping [])
  | b :: t =>
    if b = byte '{' then items .object (readMember read) true (.tail b t)
    else .error (misfit .mapping (b :: t))

def readList {α : Type} (read : Reader α) : Reader (List α)
  | [] => .error (misfit .sequence [])
  | b :: t =>
    if b = byte '[' then items .list read true (.tail b t)
    else .error (misfit .sequence (b :: t))

def readText : Reader String
  | [] => .error (misfit .string [])
  | b :: t =>
    if b = byte '"' then readString (.tail b t) else .error (misfit .string (b :: t))

def readIgnored : Reader Unit := fun s => (skipValue s).map fun r => ((), r)

/-- Reads a value as the bytes that write it, which have to be UTF-8. -/
def readSpan : Reader Bytes := fun s =>
  match skipValue s with
  | .error f => .error f
  | .ok r =>
    if Utf8.isValid r.span then .ok (r.span, r)
    else .error ⟨.invalidUnicode, s.length - (Utf8.validLength r.span + 1)⟩

theorem readSpan_prefix {s span : Bytes} {r : Rest s} (h : readSpan s = .ok (span, r)) :
    span <+: s := by
  unfold readSpan at h
  split at h
  · simp at h
  · split at h
    · simp only [Except.ok.injEq, Prod.mk.injEq] at h
      exact h.1 ▸ Rest.span_prefix _
    · simp at h

def readDocument {α : Type} (read : Reader α) (document : Bytes) : Except Fault α :=
  match read (document.dropWhile Bytes.isBlank) with
  | .error f => .error f
  | .ok (a, r) =>
    if r.skipBlanks.bytes.isEmpty then .ok a
    else .error (.ahead .trailingCharacters r.skipBlanks.bytes)

end DocMatch.Json
