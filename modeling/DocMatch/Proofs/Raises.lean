import DocMatch.Expression.StringTest
import DocMatch.Proofs.Correlation
import DocMatch.Proofs.Document
import DocMatch.Proofs.Expression.Grammar

/-!
Which errors a computation can end in. An expected text is read without ever meeting a number that
cannot be read, and what is wrong with the keys of an array is no matter of reading either. Main
statements: `judges_parse`, `raises_keyed` and `raises_identityTexts`.
-/

namespace DocMatch

/-- Every error that `x` can end in satisfies `P`. -/
def Raises (P : MatchError → Prop) {α : Type} (x : Except MatchError α) : Prop :=
  ∀ error, x = .error error → P error

namespace MatchError

def isReading : MatchError → Bool
  | invalidNumber _ | invalidBoolean _ | invalidDocument _ => true
  | _ => false

/-- The errors of reading that no document can bring about. -/
def isUnreachable : MatchError → Bool
  | invalidNumber _ | invalidBoolean _ | invalidDocument (.undetermined _) => true
  | _ => false

theorem isUnreachable_of_not_isReading {error : MatchError} (h : error.isReading = false) :
    error.isUnreachable = false := by
  cases error with
  | invalidNumber => cases h
  | invalidBoolean => cases h
  | invalidDocument => cases h
  | _ => rfl

end MatchError

section

variable {P Q : MatchError → Prop} {α β : Type} {x : Except MatchError α}

theorem raises_ok (a : α) : Raises P (.ok a : Except MatchError α) := by
  intro error h
  cases h

theorem raises_error {error : MatchError} (h : P error) :
    Raises P (.error error : Except MatchError α) := by
  intro error' h'
  exact Except.error.inj h' ▸ h

theorem raises_of_eq_ok (h : ∃ a, x = .ok a) : Raises P x := by
  obtain ⟨a, rfl⟩ := h
  exact raises_ok a

theorem Raises.imp (h : Raises P x) (hpq : ∀ error, P error → Q error) : Raises Q x :=
  fun error herror => hpq error (h error herror)

theorem Raises.bind {f : α → Except MatchError β} (h : Raises P x)
    (hf : ∀ a, x = .ok a → Raises P (f a)) : Raises P (x >>= f) := by
  intro error herror
  rcases bind_eq_error_iff.1 herror with hx | ⟨a, ha, hfa⟩
  · exact h error hx
  · exact hf a ha error hfa

theorem Raises.map {f : α → β} (h : Raises P x) : Raises P (x.map f) :=
  fun error herror => h error (map_eq_error_iff.1 herror)

theorem raises_mapM {f : β → Except MatchError α} {l : List β} (h : ∀ b ∈ l, Raises P (f b)) :
    Raises P (l.mapM f) := by
  induction l with
  | nil => exact raises_ok _
  | cons b l ih =>
    rw [List.mapM_cons]
    refine (h b (List.mem_cons_self ..)).bind fun a _ => ?_
    exact (ih fun c hc => h c (List.mem_cons_of_mem _ hc)).bind fun as _ => raises_ok _

end

abbrev Judges {α : Type} (x : Except MatchError α) : Prop := Raises (·.isReading = false) x

namespace Expression

theorem exists_operand {token : List Char} (h : Binary64.IsDecimal token) :
    ∃ x, operand token = .ok x := by
  obtain ⟨x, hx⟩ := Option.isSome_iff_exists.1 (Binary64.parse?_isSome h)
  exact ⟨x, by rw [operand, hx]⟩

theorem judges_parseTimestamp (text : String) : Judges (parseTimestamp text) := by
  unfold parseTimestamp
  cases Timestamp.parse text with
  | error fault => exact raises_error rfl
  | ok t => exact raises_ok t

theorem judges_timestampCall (input : String) (token digits : List Char) :
    Judges (timestampCall input token digits) := by
  unfold timestampCall
  refine (judges_parseTimestamp _).bind fun instant _ => ?_
  split
  · exact raises_ok _
  · exact raises_error rfl

theorem judges_numberCall (input : String) (c : Comparison) {tokens : List (List Char)}
    (h : ∀ token ∈ tokens, Binary64.IsDecimal token) : Judges (numberCall input c tokens) := by
  unfold numberCall
  dsimp only
  split
  · exact raises_error rfl
  refine (raises_mapM fun token htoken => raises_of_eq_ok (exists_operand (h token htoken))).bind
    fun operands _ => ?_
  split
  · exact raises_ok _
  · exact raises_error rfl

theorem judges_elim {α β : Type} {o : Option α} {error : MatchError}
    {f : α → Except MatchError β} (herror : error.isReading = false)
    (hf : ∀ a, o = some a → Judges (f a)) : Judges (o.elim (.error error) f) := by
  cases o with
  | none => exact raises_error herror
  | some a => exact hf a rfl

theorem judges_call (input : String) (f : Callee) (arguments : List Char) :
    Judges (call input f arguments) := by
  cases f with
  | beEmpty => exact judges_elim rfl fun _ _ => raises_ok _
  | not => exact judges_elim rfl fun _ _ => raises_ok _
  | beTimestamp =>
    exact judges_elim rfl fun (token, digits) _ => judges_timestampCall input token digits
  | beNumerically =>
    exact judges_elim rfl fun (c, tokens) h =>
      judges_numberCall input c (numberArguments?_sound h).isDecimal

theorem judges_parse (input : String) : Judges (parse input) := by
  unfold parse
  split
  · exact raises_ok _
  next f arguments _ => exact (judges_call input f arguments).map

end Expression

theorem judges_stringTest (expected : String) : Judges (StringTest.ofExpected expected) := by
  refine (Expression.judges_parse expected).bind fun expression _ => ?_
  split
  · exact raises_ok _
  · exact raises_ok _
  · exact raises_ok _
  · exact raises_error rfl

theorem judges_holds (actual : String) (test : StringTest) : Judges (test.holds actual) := by
  cases test with
  | equal text => exact raises_ok _
  | length demand => exact raises_ok _
  | timestamp instant delta => exact (Expression.judges_parseTimestamp actual).map

theorem judges_numberTest (expected : String) : Judges (NumberTest.ofExpected expected) := by
  refine (Expression.judges_parse expected).bind fun expression _ => ?_
  split
  · exact raises_ok _
  · exact raises_error rfl

theorem judges_emptiness (expected : String) : Judges (Emptiness.ofExpected? expected) := by
  refine (Expression.judges_parse expected).bind fun expression _ => ?_
  split
  · exact raises_ok _
  · exact raises_ok _

/-- Nodes with the property `Q` can be read with no errors but those with the property `P`, and
what is read from them has the property, too. -/
structure Readable (Q : Node → Prop) (P : MatchError → Prop) : Prop where
  judges {error : MatchError} : error.isReading = false → P error
  value {n : Node} : Q n → n.IsValue
  text {n : Node} : Q n → n.kind = .string → Raises P n.stringValue
  checked {n : Node} : Q n → n.kind = .object → Raises P (Document.checkObject n.raw)
  fields {n : Node} : Q n → n.kind = .object → Raises P (Document.fields n.raw)
  field {n m : Node} {fs : Fields} {key : String} :
    Q n → Document.fields n.raw = .ok fs → fs.get? key = some m → Q m
  elements {n : Node} : Q n → n.kind = .array → Raises P (Document.elements n.raw)
  element {n m : Node} {nodes : List Node} :
    Q n → n.kind = .array → Document.elements n.raw = .ok nodes → m ∈ nodes → Q m
  stripped {n : Node} {key : String} {raw : Bytes} :
    Q n → Document.withoutField n.raw key = .ok raw → Q ⟨.object, raw⟩

theorem raises_read {α : Type} (reader : Json.Reader α) (data : Bytes) :
    Raises (·.isUnreachable = false) (Document.read reader data) := by
  unfold Document.read
  split
  · exact raises_ok _
  · exact raises_error rfl

namespace Document

theorem raises_checkObject (data : Bytes) : Raises (·.isUnreachable = false) (checkObject data) :=
  (raises_read _ _).map

theorem raises_fields (data : Bytes) : Raises (·.isUnreachable = false) (fields data) := by
  refine (raises_read _ _).bind fun members hmembers => ?_
  refine (raises_mapM fun (key, raw) hm => ?_).bind fun l _ => raises_ok _
  obtain ⟨e, he⟩ := readDocument_ok hmembers
  obtain ⟨m, hvalue, rfl⟩ := readObject_isValue he _ hm
  refine raises_of_eq_ok ⟨(key, m), ?_⟩
  rw [fieldOfMember, node_of_isValue hvalue]
  rfl

theorem raises_elements (data : Bytes) : Raises (·.isUnreachable = false) (elements data) := by
  refine (raises_read _ _).bind fun spans hspans => raises_mapM fun raw hraw => ?_
  obtain ⟨e, he⟩ := readDocument_ok hspans
  obtain ⟨m, hm, rfl⟩ := readList_isValue he raw hraw
  exact raises_of_eq_ok ⟨m, node_of_isValue hm⟩

end Document

theorem readable_isValue : Readable Node.IsValue (·.isUnreachable = false) where
  judges := MatchError.isUnreachable_of_not_isReading
  value h := h
  text {n} _ hkind := by
    rw [Node.stringValue, if_pos hkind]
    exact raises_read _ _
  checked {n} _ _ := Document.raises_checkObject n.raw
  fields {n} _ _ := Document.raises_fields n.raw
  field _ hfs hm := Document.isValue_of_get? hfs hm
  elements {n} _ _ := Document.raises_elements n.raw
  element _ _ hnodes hm := Document.elements_sound hnodes _ hm
  stripped _ hraw := Document.withoutField_sound hraw

/-- Where all literals denote text, nothing that is read ends in an error. -/
theorem readable_isSpelled : Readable Node.IsSpelled (·.isReading = false) where
  judges h := h
  value h := h.isValue
  text h hkind := raises_of_eq_ok (h.exists_stringValue hkind)
  checked h hkind := by
    obtain ⟨fs, -, hcheck, -⟩ := h.exists_fields hkind
    exact raises_of_eq_ok ⟨(), hcheck⟩
  fields h hkind := by
    obtain ⟨fs, hfs, -⟩ := h.exists_fields hkind
    exact raises_of_eq_ok ⟨fs, hfs⟩
  field h hfs hm := h.spelled_of_get? hfs hm
  elements h hkind := by
    obtain ⟨nodes, hnodes, -⟩ := h.exists_elements hkind
    exact raises_of_eq_ok ⟨nodes, hnodes⟩
  element h hkind hnodes hm := h.spelled_of_mem hkind hnodes hm
  stripped h hraw := h.spelled_withoutField hraw

namespace Readable

variable {Q : Node → Prop} {P : MatchError → Prop} (hq : Readable Q P)

include hq

theorem of_judges {α : Type} {x : Except MatchError α} (h : Judges x) : Raises P x :=
  h.imp fun _ => hq.judges

theorem of_stripped {n m : Node} {nodes : List Node} {key : Correlation.Key} (hn : Q n)
    (hkind : n.kind = .array) (hnodes : Document.elements n.raw = .ok nodes)
    (hm : Correlation.Stripped nodes key m) : Q m := by
  obtain ⟨x, hx, -, raw, hraw, rfl⟩ := hm
  exact hq.stripped (hq.element hn hkind hnodes hx) hraw

theorem raises_keyText {n : Node} (hn : Q n) : Raises P n.keyText := by
  unfold Node.keyText
  split
  next hkind => exact hq.text hn hkind
  next => exact raises_ok _

theorem raises_identityOf {n : Node} (hn : Q n) : Raises P (Correlation.identityOf n) := by
  unfold Correlation.identityOf
  split
  next hkind =>
    refine (hq.text hn hkind).bind fun text _ => ?_
    split
    · exact raises_ok _
    · exact raises_error (hq.judges rfl)
  next => exact raises_error (hq.judges rfl)

theorem raises_indexOf (n : Node) : Raises P (Correlation.indexOf n) := by
  unfold Correlation.indexOf
  split
  · exact raises_ok _
  · exact raises_error (hq.judges rfl)

theorem raises_readKey {n : Node} (hn : Q n) (hkind : n.kind = .object) (position : Nat) :
    Raises P (Correlation.readKey n position) := by
  refine (hq.fields hn hkind).bind fun fs hfs => ?_
  split
  · exact raises_error (hq.judges rfl)
  · exact raises_error (hq.judges rfl)
  · exact hq.raises_indexOf _
  next m _ hm => exact hq.raises_identityOf (hq.field hn hfs hm)

theorem raises_checkNext (earlier : List Correlation.Key) (key : Correlation.Key) :
    Raises P (Correlation.checkNext earlier key) := by
  have hagree (first : Correlation.Key) : Raises P (Correlation.agree first key) := by
    unfold Correlation.agree
    split
    · exact raises_ok _
    · split
      · exact raises_ok _
      · exact raises_error (hq.judges rfl)
    · exact raises_error (hq.judges rfl)
  have hduplicate : P (Correlation.duplicate key) := by
    cases key <;> exact hq.judges rfl
  have hmem : Raises P (if key ∈ earlier then Except.error (Correlation.duplicate key)
      else Except.ok ()) := by
    split
    · exact raises_error hduplicate
    · exact raises_ok _
  unfold Correlation.checkNext
  cases earlier.head? with
  | none => exact hmem
  | some first => exact (hagree first).bind fun _ _ => hmem

theorem raises_keyedAfter (earlier : List Correlation.Key) {elements : List Node}
    (h : ∀ n ∈ elements, Q n ∧ n.kind = .object) :
    Raises P (Correlation.keyedAfter earlier elements) := by
  induction elements generalizing earlier with
  | nil => exact raises_ok _
  | cons n rest ih =>
    obtain ⟨hn, hkind⟩ := h n (List.mem_cons_self ..)
    refine (hq.raises_readKey hn hkind _).bind fun key _ => ?_
    refine (hq.raises_checkNext earlier key).bind fun _ _ => ?_
    refine ((hq.fields hn hkind).bind fun fs _ => raises_ok _).bind fun raw _ => ?_
    exact (ih _ fun m hm => h m (List.mem_cons_of_mem _ hm)).bind fun more _ => raises_ok _

theorem raises_keyed {elements : List Node} (h : ∀ n ∈ elements, Q n ∧ n.kind = .object) :
    Raises P (Correlation.keyed elements) :=
  (hq.raises_keyedAfter [] h).map

theorem raises_identityText (name : String) (position : Nat) {n : Node} (hn : Q n) :
    Raises P (Correlation.identityText name position n) := by
  unfold Correlation.identityText
  split
  · exact raises_error (hq.judges rfl)
  next hkind =>
    have hfields := hq.fields hn (not_not.1 hkind)
    split
    next error hfs => exact raises_error (hfields error hfs)
    next fs hfs =>
      split
      · exact raises_error (hq.judges rfl)
      next f hf => exact hq.raises_keyText (hq.field hn hfs hf)

theorem raises_identityTexts (name : String) (position : Nat) {nodes : List Node}
    (h : ∀ n ∈ nodes, Q n) : Raises P (Correlation.identityTexts name position nodes) := by
  induction nodes generalizing position with
  | nil => exact raises_ok _
  | cons n rest ih =>
    rw [Correlation.identityTexts_cons]
    have htext := hq.raises_identityText name position (h n (List.mem_cons_self ..))
    have hrest := ih (position + 1) fun m hm => h m (List.mem_cons_of_mem _ hm)
    split
    next error herror => exact raises_error (htext error herror)
    next text _ =>
      split
      next error herror => exact raises_error (hrest error herror)
      next => exact raises_ok _

end Readable

end DocMatch
