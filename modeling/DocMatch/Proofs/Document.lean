import DocMatch.Document
import DocMatch.Proofs.Decimal
import DocMatch.Proofs.Fields
import DocMatch.Proofs.Json.Follows
import DocMatch.Proofs.Json.Reading
import DocMatch.Proofs.Json.Surrogates

/-!
Documents taken apart and put together. Every node that comes out of a document, at any depth, is a
value of its kind and can be read again. Main statements: `root_sound`, `elements_sound`,
`fields_sound`, and with every literal denoting text `elements_complete`, `fields_complete` and
`isSpelled_ofFields`.
-/

namespace DocMatch

open Json

namespace Document

theorem node_of_isValue {n : Node} (h : n.IsValue) : node n.raw = .ok n := by
  rw [node, h.ofRaw?]

theorem node_sound {raw : Bytes} {m n : Node} (h : node raw = .ok n) (hm : m.IsValue)
    (hraw : m.raw = raw) : n = m := by
  rw [← hraw, node_of_isValue hm] at h
  exact (Except.ok.inj h).symm

section

variable {α : Type} {reader : Reader α} {a : α}

theorem read_eq_ok_iff {data : Bytes} :
    read reader data = .ok a ↔ readDocument reader data = .ok a := by
  unfold read
  cases readDocument reader data with
  | error fault => simp
  | ok b => simp

theorem read_of_reads {data s w : Bytes} (hdata : data.dropWhile Bytes.isBlank = s)
    (hread : Reads (reader s) a w) (hw : AllBlank w) : read reader data = .ok a := by
  subst hdata
  obtain ⟨q, hq, hqw⟩ := hread
  have hend : q.skipBlanks.bytes = [] := by
    rw [Rest.skipBlanks, Rest.dropWhile_bytes, hqw]
    simpa using dropWhile_blanks hw []
  have hdocument : readDocument reader data = .ok a := by
    rw [readDocument, hq]
    simp [hend]
  rw [read, hdocument]

theorem read_complete {v x w : Bytes} (hv : AllBlank v) (hw : AllBlank w) (hx : Opens x)
    (hread : Completes reader x a) : read reader (v ++ (x ++ w)) = .ok a := by
  obtain ⟨b, t, rfl, hb, -⟩ := hx
  refine read_of_reads ?_ (hread w (by simpa using endsValue_blanks (t := []) hw rfl)) hw
  rw [dropWhile_blanks hv, List.cons_append, List.dropWhile_cons_of_neg (by simp [hb])]

theorem read_complete_self {x : Bytes} (hx : Opens x) (hread : Completes reader x a) :
    read reader x = .ok a := by
  have := read_complete allBlank_nil allBlank_nil hx hread
  rwa [List.append_nil, List.nil_append] at this

theorem read_sound {data : Bytes} (h : read reader data = .ok a) :
    ∃ v r, AllBlank v ∧ reader (data.dropWhile Bytes.isBlank) = .ok (a, r) ∧ AllBlank r.bytes ∧
      data = v ++ data.dropWhile Bytes.isBlank := by
  unfold read at h
  split at h
  next a' ha =>
    obtain rfl : a' = a := Except.ok.inj h
    unfold readDocument at ha
    split at ha
    · simp at ha
    next a'' r hr =>
      split at ha
      next hempty =>
        obtain rfl : a'' = a' := Except.ok.inj ha
        obtain ⟨w, hw, hwr⟩ := exists_blanks r
        rw [List.isEmpty_iff.1 hempty, List.append_nil] at hwr
        exact ⟨_, r, allBlank_takeWhile data, hr, hwr ▸ hw,
          (List.takeWhile_append_dropWhile ..).symm⟩
      · simp at ha
  next => simp at h

end

theorem root_complete {n : Node} (h : n.IsValue) {v w : Bytes} (hv : AllBlank v) (hw : AllBlank w) :
    root (v ++ (n.raw ++ w)) = .ok n := by
  rw [root, read_complete hv hw h.opens (readSpan_complete h.loose h.isValid)]
  exact node_of_isValue h

theorem root_complete_self {n : Node} (h : n.IsValue) : root n.raw = .ok n := by
  have := root_complete h allBlank_nil allBlank_nil
  rwa [List.append_nil, List.nil_append] at this

theorem root_sound {data : Bytes} {n : Node} (h : root data = .ok n) :
    n.IsValue ∧ ∃ v w, AllBlank v ∧ AllBlank w ∧ data = v ++ (n.raw ++ w) := by
  obtain ⟨raw, hraw, hnode⟩ := bind_eq_ok_iff.1 h
  obtain ⟨v, r, hv, hr, hw, hdata⟩ := read_sound hraw
  obtain ⟨m, hm, hvalid, hmraw, hspan⟩ := readSpan_sound hr
  obtain rfl := node_sound hnode (hm.encoded hvalid) hmraw
  refine ⟨hm.encoded hvalid, v, r.bytes, hv, hw, ?_⟩
  rw [hmraw, ← hspan]
  exact hdata

theorem exists_isValue {s raw : Bytes} {r : Rest s} (h : readSpan s = .ok (raw, r)) :
    ∃ n : Node, n.IsValue ∧ n.raw = raw := by
  obtain ⟨n, hn, hvalid, hraw, -⟩ := readSpan_sound h
  exact ⟨n, hn.encoded hvalid, hraw⟩

theorem readList_isValue {s : Bytes} {spans : List Bytes} {e : Rest s}
    (h : readList readSpan s = .ok (spans, e)) :
    ∀ raw ∈ spans, ∃ n : Node, n.IsValue ∧ n.raw = raw := by
  cases s with
  | nil => simp [readList] at h
  | cons b t =>
    rw [readList] at h
    split at h
    · exact items_forall true (Rest.tail b t) (fun _ _ _ _ hr => exists_isValue hr) h
    · simp at h

theorem readObject_isValue {s : Bytes} {members : List (String × Bytes)} {e : Rest s}
    (h : readObject readSpan s = .ok (members, e)) :
    ∀ m ∈ members, ∃ n : Node, n.IsValue ∧ n.raw = m.2 := by
  cases s with
  | nil => simp [readObject] at h
  | cons b t =>
    rw [readObject] at h
    split at h
    · refine items_forall true (Rest.tail b t) (fun u m q _ hr => ?_) h
      obtain ⟨v, -, q', hr'⟩ := readMember_ok hr
      exact exists_isValue hr'
    · simp at h

theorem elements_between {v w y : Bytes} {nodes : List Node} (hv : AllBlank v) (hw : AllBlank w)
    (h : Enclosed (byte '[') (byte ']') Element y nodes) (hn : ∀ n ∈ nodes, n.IsValue) :
    elements (v ++ (y ++ w)) = .ok nodes := by
  have hopen : Opens y := (Node.Written.array h hn).opens
  have hread := readList_complete readSpan (f := Node.raw) h fun x n hmem hx => by
    obtain rfl : x = n.raw := hx
    exact ⟨(hn n hmem).opens, readSpan_complete (hn n hmem).loose (hn n hmem).isValid⟩
  rw [elements, read_complete hv hw hopen fun t _ => hread t]
  exact mapM_map fun n hmem => node_of_isValue (hn n hmem)

theorem elements_complete {y : Bytes} {nodes : List Node}
    (h : Enclosed (byte '[') (byte ']') Element y nodes) (hn : ∀ n ∈ nodes, n.IsValue) :
    elements y = .ok nodes := by
  have := elements_between allBlank_nil allBlank_nil h hn
  rwa [List.append_nil, List.nil_append] at this

theorem elements_sound {data : Bytes} {nodes : List Node} (h : elements data = .ok nodes) :
    ∀ n ∈ nodes, n.IsValue := by
  obtain ⟨spans, hspans, hnodes⟩ := bind_eq_ok_iff.1 h
  obtain ⟨e, he⟩ := readDocument_ok hspans
  intro n hn
  obtain ⟨raw, hraw, hnode⟩ := mem_of_mapM hnodes n hn
  obtain ⟨m, hm, hmraw⟩ := readList_isValue he raw hraw
  exact node_sound hnode hm hmraw ▸ hm

section

variable {y : Bytes} {members : List (String × Node)}
  (h : Enclosed (byte '{') (byte '}') (Member Spells) y members)

include h

theorem fields_between {v w : Bytes} (hv : AllBlank v) (hw : AllBlank w)
    (hn : ∀ m ∈ members, m.2.IsValue) : fields (v ++ (y ++ w)) = .ok (Fields.ofList members) := by
  have hopen : Opens y := by cases h <;> exact ⟨_, _, rfl, by decide, by decide, by decide⟩
  have hread := readObject_complete readSpan h fun m hm =>
    ⟨(hn m hm).opens, readSpan_complete (hn m hm).loose (hn m hm).isValid⟩
  have hnodes : (members.map fun m => (m.1, m.2.raw)).mapM fieldOfMember = .ok members :=
    mapM_map fun m hm => by rw [fieldOfMember, node_of_isValue (hn m hm)]; rfl
  rw [fields, read_complete hv hw hopen fun t _ => hread t]
  simp only [bind, Except.bind, hnodes]
  rfl

theorem fields_complete (hn : ∀ m ∈ members, m.2.IsValue) :
    fields y = .ok (Fields.ofList members) := by
  have := fields_between h allBlank_nil allBlank_nil hn
  rwa [List.append_nil, List.nil_append] at this

theorem checkObject_complete (hn : ∀ m ∈ members, m.2.IsValue) : checkObject y = .ok () := by
  have hopen : Opens y := by cases h <;> exact ⟨_, _, rfl, by decide, by decide, by decide⟩
  have hread := readObject_complete readIgnored (g := fun _ => ()) h fun m hm =>
    ⟨(hn m hm).opens, readIgnored_complete (hn m hm).loose⟩
  rw [checkObject, read_complete_self hopen fun t _ => hread t]
  rfl

end

theorem exists_members_of_fields {data : Bytes} {fs : Fields} (h : fields data = .ok fs) :
    ∃ members l, read (readObject readSpan) data = .ok members ∧
      members.mapM fieldOfMember = .ok l ∧ Fields.ofList l = fs := by
  obtain ⟨members, hmembers, hrest⟩ := bind_eq_ok_iff.1 h
  obtain ⟨l, hl, hfs⟩ := bind_eq_ok_iff.1 hrest
  exact ⟨members, l, hmembers, hl, Except.ok.inj hfs⟩

theorem checkObject_of_fields {data : Bytes} {fs : Fields} (h : fields data = .ok fs) :
    checkObject data = .ok () := by
  obtain ⟨members, -, hmembers, -⟩ := exists_members_of_fields h
  obtain ⟨names, hnames⟩ := readSpan_follows.readObject.readDocument (read_eq_ok_iff.1 hmembers)
  rw [checkObject, read, hnames]
  rfl

theorem fields_sound {data : Bytes} {fs : Fields} (h : fields data = .ok fs) :
    ∀ f ∈ fs.toList, f.2.IsValue := by
  obtain ⟨members, l, hmembers, hl, rfl⟩ := exists_members_of_fields h
  obtain ⟨e, he⟩ := readDocument_ok hmembers
  intro f hf
  obtain ⟨⟨key, raw⟩, hm, hfield⟩ := mem_of_mapM hl f (Fields.mem_ofList hf)
  obtain ⟨n, hn, hraw⟩ := readObject_isValue he _ hm
  obtain ⟨m, hnode, rfl⟩ := map_eq_ok_iff.1 hfield
  exact node_sound hnode hn hraw ▸ hn

theorem isValue_of_get? {data : Bytes} {fs : Fields} {key : String} {n : Node}
    (h : fields data = .ok fs) (hn : fs.get? key = some n) : n.IsValue :=
  fields_sound h _ (Fields.mem_of_get? hn)

theorem listed_members (f : Field) (l : List Field) :
    Listed (fun x f => x = memberBytes f) ([byte ','].intercalate ((f :: l).map memberBytes))
      (f :: l) := by
  induction l generalizing f with
  | nil =>
    have hlast : Listed (fun x f => x = memberBytes f) ([] ++ (memberBytes f ++ [])) [f] :=
      .last allBlank_nil rfl allBlank_nil
    simpa using hlast
  | cons g l ih =>
    have hmore : Listed (fun x f => x = memberBytes f) ([] ++ (memberBytes f ++ ([] ++ byte ',' ::
        [byte ','].intercalate ((g :: l).map memberBytes)))) (f :: g :: l) :=
      .more allBlank_nil rfl allBlank_nil (ih g)
    simpa using hmore

theorem enclosed_ofFields (fs : Fields) :
    Enclosed (byte '{') (byte '}') (fun x f => x = memberBytes f) (ofFields fs) fs.toList := by
  unfold ofFields
  cases fs.toList with
  | nil => exact .empty allBlank_nil
  | cons f l => exact .full (listed_members f l)

theorem member_memberBytes {κ : Type} {Lit : Bytes → κ → Prop} {f : Field} {k : κ}
    (hk : Lit (escape f.1) k) : Member Lit (memberBytes f) (k, f.2) := by
  have := Member.mk (n := f.2) hk allBlank_nil allBlank_nil
  simpa [memberBytes, writeString_eq, quote] using this

theorem enclosed_members (fs : Fields) :
    Enclosed (byte '{') (byte '}') (Member Spells) (ofFields fs) fs.toList := by
  have hmembers : ∃ members, Enclosed (byte '{') (byte '}') (Member Spells) (ofFields fs) members ∧
      List.Forall₂ Eq fs.toList members :=
    (enclosed_ofFields fs).exists_forall₂ fun x f _ hx =>
      ⟨f, hx ▸ member_memberBytes (spells_escape f.1), rfl⟩
  obtain ⟨members, h, heq⟩ := hmembers
  rw [List.forall₂_eq_eq_eq] at heq
  exact heq ▸ h

theorem isSpelled_ofFields {fs : Fields} (h : ∀ f ∈ fs.toList, f.2.IsSpelled) :
    Node.IsSpelled ⟨.object, ofFields fs⟩ :=
  .object (enclosed_members fs) h

theorem isValue_ofFields {fs : Fields} (h : ∀ f ∈ fs.toList, f.2.IsValue) :
    Node.IsValue ⟨.object, ofFields fs⟩ := by
  have hmembers : ∃ members, Enclosed (byte '{') (byte '}') (Member Encoded) (ofFields fs) members ∧
      List.Forall₂ (fun _ m => m.2.IsValue) fs.toList members := by
    refine (enclosed_ofFields fs).exists_forall₂ fun x f hf hx => ?_
    have hkey : Encoded (escape f.1) () := ⟨(spells_escape f.1).isBody, (spells_escape f.1).1⟩
    exact ⟨((), f.2), hx ▸ member_memberBytes hkey, h f hf⟩
  obtain ⟨members, hmembers, hforall⟩ := hmembers
  exact .object hmembers (forall_mem_of_forall₂ hforall)

theorem mem_erase {fs : Fields} {key : String} {f : Field} (h : f ∈ (fs.erase key).toList) :
    f ∈ fs.toList :=
  (List.mem_filter.1 h).1

theorem exists_fields_of_withoutField {data raw : Bytes} {key : String}
    (h : withoutField data key = .ok raw) :
    ∃ fs, fields data = .ok fs ∧ ofFields (fs.erase key) = raw := by
  obtain ⟨fs, hfs, hraw⟩ := bind_eq_ok_iff.1 h
  exact ⟨fs, hfs, Except.ok.inj hraw⟩

theorem withoutField_sound {data raw : Bytes} {key : String}
    (h : withoutField data key = .ok raw) : Node.IsValue ⟨.object, raw⟩ := by
  obtain ⟨fs, hfs, rfl⟩ := exists_fields_of_withoutField h
  exact isValue_ofFields fun f hf => fields_sound hfs f (mem_erase hf)

theorem fields_ofFields {fs : Fields} (h : ∀ f ∈ fs.toList, f.2.IsValue) :
    fields (ofFields fs) = .ok fs := by
  rw [fields_complete (enclosed_members fs) h, Fields.ofList_toList]

end Document

namespace Node

theorem stringValue_complete {b : Bytes} {text : String} (h : Spells b text) :
    stringValue ⟨.string, quote b⟩ = .ok text := by
  have hread : Completes readText (quote b) text := by
    intro t _
    rw [quote_append, readText, if_pos rfl]
    exact readString_complete h rfl
  have hopen : Opens (quote b) := ⟨_, _, rfl, by decide, by decide, by decide⟩
  rw [stringValue, if_pos rfl]
  exact Document.read_complete_self hopen hread

theorem lossy_of_isNumber {x : Bytes} (hx : IsNumber x) :
    (Utf8.lossy x).toList = x.map toChar := by
  rw [Utf8.lossy_of_lt fun b hb => (isPlain_of_isNumber hx b hb).1, String.toList_ofList]
  rfl

theorem numberValue_complete {x : Bytes} (hx : IsNumber x) :
    ∃ value, numberValue ⟨.number, x⟩ = .ok value := by
  have hdecimal := isDecimal_of_isNumber hx
  obtain ⟨value, hvalue⟩ := Option.isSome_iff_exists.1 (Binary64.parse?_isSome hdecimal)
  refine ⟨value, ?_⟩
  rw [numberValue, text, lossy_of_isNumber hx, Binary64.trim_of_shows hdecimal.shows, hvalue]

theorem booleanValue_complete {x : Bytes}
    (hx : x = Bytes.ofString "true" ∨ x = Bytes.ofString "false") :
    ∃ value, booleanValue ⟨.boolean, x⟩ = .ok value := by
  rcases hx with rfl | rfl
  · exact ⟨true, by rw [booleanValue, text, Utf8.lossy_ofString]; decide⟩
  · exact ⟨false, by rw [booleanValue, text, Utf8.lossy_ofString]; decide⟩

end Node

open Document

theorem Document.readObject_head {α : Type} {reader : Reader α} {s : Bytes}
    {p : List (String × α) × Rest s} (h : readObject reader s = .ok p) :
    s.head? = some (byte '{') := by
  cases s with
  | nil => simp [readObject] at h
  | cons b t =>
    rw [readObject] at h
    split at h
    next hb => rw [hb, List.head?_cons]
    · simp at h

theorem Document.readList_head {α : Type} {reader : Reader α} {s : Bytes}
    {p : List α × Rest s} (h : readList reader s = .ok p) : s.head? = some (byte '[') := by
  cases s with
  | nil => simp [readList] at h
  | cons b t =>
    rw [readList] at h
    split at h
    next hb => rw [hb, List.head?_cons]
    · simp at h

/-- No bytes are read both as an array and as an object. -/
theorem Document.fields_ne_ok_of_elements {data : Bytes} {nodes : List Node}
    (h : elements data = .ok nodes) (fs : Fields) : fields data ≠ .ok fs := by
  intro hfs
  obtain ⟨spans, hspans, -⟩ := bind_eq_ok_iff.1 h
  obtain ⟨members, -, hmembers, -⟩ := exists_members_of_fields hfs
  obtain ⟨r, hr⟩ := readDocument_ok hspans
  obtain ⟨r', hr'⟩ := readDocument_ok hmembers
  have hhead := (readList_head hr).symm.trans (readObject_head hr')
  exact absurd hhead (by decide)

namespace Node.Written

variable {κ : Type} {Lit : Bytes → κ → Prop} {n : Node}

theorem kind_of_readObject (h : n.Written Lit) {α : Type} {reader : Reader α}
    {members : List (String × α)} (hmembers : read (readObject reader) n.raw = .ok members) :
    n.kind = .object := by
  obtain ⟨b, t, hraw, hb⟩ := h.exists_cons
  obtain ⟨r, hr⟩ := readDocument_ok hmembers
  have hhead := readObject_head hr
  rw [hraw, List.dropWhile_cons_of_neg (by simp [isBlank_of_isSpace (ofFirstByte?_some hb).1]),
    List.head?_cons, Option.some.injEq] at hhead
  subst hhead
  exact (Option.some.inj hb).symm

theorem kind_of_fields (h : n.Written Lit) {fs : Fields} (hfs : fields n.raw = .ok fs) :
    n.kind = .object := by
  obtain ⟨members, -, hmembers, -⟩ := exists_members_of_fields hfs
  exact h.kind_of_readObject hmembers

theorem checkObject_of_kind_ne (h : n.Written Lit) (hkind : n.kind ≠ .object) :
    ∃ cause place, checkObject n.raw = .error (.invalidDocument (.malformed cause place)) := by
  unfold checkObject
  cases hmembers : Document.read (readObject readIgnored) n.raw with
  | ok members => exact absurd (h.kind_of_readObject hmembers) hkind
  | error error =>
    unfold Document.read at hmembers
    split at hmembers
    · cases hmembers
    · obtain rfl := Except.error.inj hmembers
      exact ⟨_, _, rfl⟩

theorem exists_fields (h : n.IsSpelled) (hkind : n.kind = .object) :
    ∃ fs, fields n.raw = .ok fs ∧ checkObject n.raw = .ok () ∧
      ∀ f ∈ fs.toList, f.2.IsSpelled := by
  cases h with
  | object h hm =>
    have hvalue := fun m hmem => (hm m hmem).isValue
    exact ⟨_, fields_complete h hvalue, checkObject_complete h hvalue,
      fun f hf => hm f (Fields.mem_ofList hf)⟩
  | _ => cases hkind

theorem spelled_of_fields (h : n.IsSpelled) {fs : Fields} (hfs : fields n.raw = .ok fs) :
    ∀ f ∈ fs.toList, f.2.IsSpelled := by
  obtain ⟨fs', hfs', -, hall⟩ := h.exists_fields (h.kind_of_fields hfs)
  obtain rfl : fs' = fs := Except.ok.inj (hfs'.symm.trans hfs)
  exact hall

theorem spelled_of_get? (h : n.IsSpelled) {fs : Fields} (hfs : fields n.raw = .ok fs)
    {key : String} {m : Node} (hm : fs.get? key = some m) : m.IsSpelled :=
  h.spelled_of_fields hfs _ (Fields.mem_of_get? hm)

theorem spelled_withoutField (h : n.IsSpelled) {key : String} {raw : Bytes}
    (hraw : withoutField n.raw key = .ok raw) : Node.IsSpelled ⟨.object, raw⟩ := by
  obtain ⟨fs, hfs, rfl⟩ := exists_fields_of_withoutField hraw
  exact isSpelled_ofFields fun f hf => h.spelled_of_fields hfs f (mem_erase hf)

theorem exists_elements_of_isValue (h : n.IsValue) (hkind : n.kind = .array) :
    ∃ nodes, elements n.raw = .ok nodes := by
  cases h with
  | array h hn => exact ⟨_, elements_complete h hn⟩
  | _ => cases hkind

theorem exists_elements (h : n.IsSpelled) (hkind : n.kind = .array) :
    ∃ nodes, elements n.raw = .ok nodes ∧ ∀ m ∈ nodes, m.IsSpelled := by
  cases h with
  | array h hn => exact ⟨_, elements_complete h fun m hm => (hn m hm).isValue, hn⟩
  | _ => cases hkind

theorem spelled_of_mem (h : n.IsSpelled) (hkind : n.kind = .array) {nodes : List Node}
    (hnodes : elements n.raw = .ok nodes) {m : Node} (hm : m ∈ nodes) : m.IsSpelled := by
  obtain ⟨nodes', hnodes', hall⟩ := h.exists_elements hkind
  obtain rfl : nodes' = nodes := Except.ok.inj (hnodes'.symm.trans hnodes)
  exact hall m hm

theorem exists_stringValue (h : n.IsSpelled) (hkind : n.kind = .string) :
    ∃ text, n.stringValue = .ok text := by
  cases h with
  | string hb => exact ⟨_, stringValue_complete hb⟩
  | _ => cases hkind

theorem exists_keyText (h : n.IsSpelled) : ∃ text, n.keyText = .ok text := by
  unfold keyText
  split
  next hkind => exact h.exists_stringValue hkind
  next => exact ⟨_, rfl⟩

theorem exists_numberValue (h : n.Written Lit) (hkind : n.kind = .number) :
    ∃ value, n.numberValue = .ok value := by
  cases h with
  | number hx => exact numberValue_complete hx
  | _ => cases hkind

theorem exists_booleanValue (h : n.Written Lit) (hkind : n.kind = .boolean) :
    ∃ value, n.booleanValue = .ok value := by
  cases h with
  | boolean hx => exact booleanValue_complete hx
  | _ => cases hkind

theorem kind_ne_absent (h : n.Written Lit) : n.kind ≠ .absent := by
  cases h <;> simp

end Node.Written

namespace Document

/-- The parts of a document: its root, fields and elements of parts, and objects that are parts
without one of their fields. -/
inductive Part (data : Bytes) : Node → Prop where
  | root {n : Node} : root data = .ok n → Part data n
  | field {n m : Node} {fs : Fields} {key : String} :
      Part data n → fields n.raw = .ok fs → fs.get? key = some m → Part data m
  | element {n m : Node} {nodes : List Node} :
      Part data n → n.kind = .array → elements n.raw = .ok nodes → m ∈ nodes → Part data m
  | stripped {n : Node} {key : String} {raw : Bytes} :
      Part data n → withoutField n.raw key = .ok raw → Part data ⟨.object, raw⟩

theorem root_spelled {data : Bytes} {n : Node} (hp : IsPaired data) (h : root data = .ok n) :
    n.IsSpelled := by
  obtain ⟨hn, v, w, hv, hw, rfl⟩ := root_sound h
  have hpaired : IsPaired n.raw := by
    rw [splits_isPaired.good_plain_append hv.isPlain,
      splits_isPaired.good_append_plain hn.closed hw.isPlain] at hp
    exact hp
  exact hn.spelled hpaired

theorem Part.spelled {data : Bytes} {n : Node} (hp : IsPaired data) (h : Part data n) :
    n.IsSpelled := by
  -- by induction on the way to the part
  induction h with
  | root hroot => exact root_spelled hp hroot
  | field _ hfs hm ih => exact ih.spelled_of_get? hfs hm
  | element _ hkind hnodes hmem ih => exact ih.spelled_of_mem hkind hnodes hmem
  | stripped _ hraw ih => exact ih.spelled_withoutField hraw

end Document

end DocMatch
