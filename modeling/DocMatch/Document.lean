import DocMatch.Error
import DocMatch.Fields
import DocMatch.Json.Reader
import DocMatch.Text.Blank

/-!
Documents taken apart. An object becomes its fields and an array its elements, each a node that
holds the bytes of its value as they stand in the document. Main statements: `fields_mem` and
`elements_mem`, a field's or an element's bytes are a part of the container's bytes and fewer than
those.
-/

namespace DocMatch

namespace Document

def malformed (data : Bytes) (fault : Json.Fault) : MatchError :=
  .invalidDocument (.malformed fault.cause (fault.position data))

def read {α : Type} (reader : Json.Reader α) (data : Bytes) : Except MatchError α :=
  match Json.readDocument reader data with
  | .ok a => .ok a
  | .error fault => .error (malformed data fault)

def node (raw : Bytes) : Except MatchError Node :=
  match Node.ofRaw? raw with
  | some n => .ok n
  | none => .error (.invalidDocument (.undetermined raw))

def root (data : Bytes) : Except MatchError Node := do
  node (← read Json.readSpan data)

/-- Succeeds for an object whose every value can be passed over. -/
def checkObject (data : Bytes) : Except MatchError Unit :=
  (read (Json.readObject Json.readIgnored) data).map fun _ => ()

def fieldOfMember : String × Bytes → Except MatchError Field
  | (key, raw) => (node raw).map fun n => (key, n)

def fields (data : Bytes) : Except MatchError Fields := do
  let members ← read (Json.readObject Json.readSpan) data
  pure (Fields.ofList (← members.mapM fieldOfMember))

def elements (data : Bytes) : Except MatchError (List Node) := do
  let spans ← read (Json.readList Json.readSpan) data
  spans.mapM node

def memberBytes (f : Field) : Bytes := Json.writeString f.1 ++ byte ':' :: f.2.raw

/-- An object without any blanks of its own, the values written as they were. -/
def ofFields (fields : Fields) : Bytes :=
  byte '{' :: [byte ','].intercalate (fields.toList.map memberBytes) ++ [byte '}']

def withoutField (data : Bytes) (key : String) : Except MatchError Bytes := do
  pure (ofFields ((← fields data).erase key))

theorem node_raw {raw : Bytes} {n : Node} (h : node raw = .ok n) : n.raw = raw := by
  unfold node at h
  split at h
  next m hm =>
    obtain rfl : m = n := Except.ok.inj h
    exact Node.ofRaw?_raw hm
  next => simp at h

def Within (raw data : Bytes) : Prop := raw <:+: data ∧ raw.length < data.length

theorem Within.of_read {s t raw : Bytes} {r : Rest s} {q : Rest t} (ht : t <:+ r.bytes)
    (h : Json.readSpan t = .ok (raw, q)) : Within raw s := by
  have hp := Json.readSpan_prefix h
  refine ⟨hp.isInfix.trans (ht.trans r.bytes_suffix).isInfix, ?_⟩
  exact Nat.lt_of_le_of_lt (Nat.le_trans hp.length_le ht.length_le) r.length_lt

theorem Within.dropWhile {raw data : Bytes} {p : UInt8 → Bool}
    (h : Within raw (data.dropWhile p)) : Within raw data :=
  ⟨h.1.trans (List.dropWhile_suffix p).isInfix,
    Nat.lt_of_lt_of_le h.2 (List.dropWhile_suffix p).length_le⟩

theorem readDocument_ok {α : Type} {reader : Json.Reader α} {data : Bytes} {a : α}
    (h : read reader data = .ok a) : ∃ r, reader (data.dropWhile Bytes.isBlank) = .ok (a, r) := by
  unfold read at h
  split at h
  next a' ha =>
    obtain rfl : a' = a := Except.ok.inj h
    unfold Json.readDocument at ha
    split at ha
    · simp at ha
    next a'' r hr =>
      split at ha
      · exact ⟨r, Except.ok.inj ha ▸ hr⟩
      · simp at ha
  next => simp at h

theorem readMember_ok {α : Type} {reader : Json.Reader α} {s : Bytes} {m : String × α}
    {e : Rest s} (h : Json.readMember reader s = .ok (m, e)) :
    ∃ t, t <:+ s ∧ ∃ q, reader t = .ok (m.2, q) := by
  unfold Json.readMember at h
  split at h
  · simp at h
  next name q hq =>
    unfold Json.readValue at h
    split at h
    · simp [Except.map] at h
    next colon hc =>
      split at h
      · simp [Except.map] at h
      next value e' hv =>
        simp only [Except.map, Except.ok.injEq, Prod.mk.injEq] at h
        exact ⟨_, colon.skipBlanks.bytes_suffix, e', by rw [hv, ← h.1]⟩

theorem readList_within {s : Bytes} {spans : List Bytes} {e : Rest s}
    (h : Json.readList Json.readSpan s = .ok (spans, e)) : ∀ raw ∈ spans, Within raw s := by
  cases s with
  | nil => simp [Json.readList] at h
  | cons b t =>
    rw [Json.readList] at h
    split at h
    · exact Json.items_forall true (Rest.tail b t)
        (fun u raw q hu hr => Within.of_read (r := Rest.tail b t) hu hr) h
    · simp at h

theorem readObject_within {s : Bytes} {members : List (String × Bytes)} {e : Rest s}
    (h : Json.readObject Json.readSpan s = .ok (members, e)) :
    ∀ m ∈ members, Within m.2 s := by
  cases s with
  | nil => simp [Json.readObject] at h
  | cons b t =>
    rw [Json.readObject] at h
    split at h
    · refine Json.items_forall true (Rest.tail b t) (fun u m q hu hr => ?_) h
      obtain ⟨v, hv, q', hr'⟩ := readMember_ok hr
      exact Within.of_read (r := Rest.tail b t) (hv.trans hu) hr'
    · simp at h

theorem mem_of_mapM {α β ε : Type} {f : α → Except ε β} {xs : List α} {ys : List β}
    (h : xs.mapM f = .ok ys) : ∀ y ∈ ys, ∃ x ∈ xs, f x = .ok y := by
  induction xs generalizing ys with
  | nil =>
    simp only [List.mapM_nil, pure, Except.pure, Except.ok.injEq] at h
    simp [← h]
  | cons x xs ih =>
    rw [List.mapM_cons] at h
    cases hx : f x with
    | error e => simp [hx, bind, Except.bind] at h
    | ok y =>
      cases hxs : xs.mapM f with
      | error e => simp [hx, hxs, bind, Except.bind] at h
      | ok zs =>
        simp only [hx, hxs, bind, Except.bind, pure, Except.pure, Except.ok.injEq] at h
        subst h
        intro z hz
        rcases List.mem_cons.1 hz with rfl | hz
        · exact ⟨x, List.mem_cons_self .., hx⟩
        · obtain ⟨x', hx', hf⟩ := ih hxs z hz
          exact ⟨x', List.mem_cons_of_mem _ hx', hf⟩

theorem elements_mem {data : Bytes} {nodes : List Node} (h : elements data = .ok nodes) :
    ∀ n ∈ nodes, Within n.raw data := by
  unfold elements at h
  cases hr : read (Json.readList Json.readSpan) data with
  | error e => simp [hr, bind, Except.bind] at h
  | ok spans =>
    simp only [hr, bind, Except.bind] at h
    obtain ⟨e, he⟩ := readDocument_ok hr
    intro n hn
    obtain ⟨raw, hraw, hnode⟩ := mem_of_mapM h n hn
    exact node_raw hnode ▸ (readList_within he raw hraw).dropWhile

theorem fields_mem {data : Bytes} {fs : Fields} (h : fields data = .ok fs) :
    ∀ f ∈ fs.toList, Within f.2.raw data := by
  unfold fields at h
  cases hr : read (Json.readObject Json.readSpan) data with
  | error e => simp [hr, bind, Except.bind] at h
  | ok members =>
    cases hm : members.mapM fieldOfMember with
    | error e => simp [hr, hm, bind, Except.bind] at h
    | ok l =>
      simp only [hr, hm, bind, Except.bind, pure, Except.pure, Except.ok.injEq] at h
      subst h
      obtain ⟨e, he⟩ := readDocument_ok hr
      intro f hf
      obtain ⟨m, hmem, hfield⟩ := mem_of_mapM hm f (Fields.mem_ofList hf)
      have hw := (readObject_within he m hmem).dropWhile
      cases hn : node m.2 with
      | error e => simp [fieldOfMember, hn, Except.map] at hfield
      | ok n =>
        simp only [fieldOfMember, hn, Except.map, Except.ok.injEq] at hfield
        subst hfield
        exact node_raw hn ▸ hw

theorem fields_get? {data : Bytes} {fs : Fields} {key : String} {n : Node}
    (h : fields data = .ok fs) (hn : fs.get? key = some n) : Within n.raw data :=
  fields_mem h _ (Fields.mem_of_get? hn)

end Document

namespace Node

def stringValue (n : Node) : Except MatchError String :=
  if n.kind = .string then Document.read Json.readText n.raw
  else .error (.typeMismatch .string n.kind)

def numberValue (n : Node) : Except MatchError Binary64 :=
  match Binary64.parse? (Text.trim n.text.toList) with
  | some x => .ok x
  | none => .error (.invalidNumber n.text)

def booleanValue (n : Node) : Except MatchError Bool :=
  let word := (Text.trim n.text.toList).map Char.toLower
  if word = "true".toList then .ok true
  else if word = "false".toList then .ok false
  else .error (.invalidBoolean n.text)

/-- What identifies a node by value: the text of a string, the bytes of anything else. -/
def keyText (n : Node) : Except MatchError String :=
  if n.kind = .string then n.stringValue else .ok n.text

end Node

end DocMatch
