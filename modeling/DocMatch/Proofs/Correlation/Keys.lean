import Mathlib
import DocMatch.Proofs.Correlation.Restriction
import DocMatch.Proofs.Document.Removal

/-!
What the elements of an expected array have to say about their counterparts, each by itself and all
of them together, in terms of their fields. An array that says something else is refused for the
first element that is wrong where it stands. Main statements: `readKey_eq_ok_iff`,
`readKey_eq_error_iff` and `keyed_accounted`.
-/

namespace DocMatch.Correlation

open Json

structure WritesPosition (n : Node) (i : Nat) : Prop where
  kind : n.kind = .number
  digits : IsDigits n.raw
  value : Bytes.toNat n.raw = i
  fits : i < 2 ^ 64

structure WritesIdentity (n : Node) (name value : String) : Prop where
  kind : n.kind = .string
  text : n.stringValue = .ok (name ++ "=" ++ value)
  nonempty : name ≠ ""
  name : '=' ∉ name.toList
  value : '=' ∉ value.toList

inductive Names (x : Node) : Key → Prop where
  | index {fs : Fields} {n : Node} {i : Nat} : Document.fields x.raw = .ok fs →
      fs.get? indexField = some n → fs.get? identityField = none → WritesPosition n i →
      Names x (.index i)
  | identity {fs : Fields} {n : Node} {name value : String} : Document.fields x.raw = .ok fs →
      fs.get? indexField = none → fs.get? identityField = some n → WritesIdentity n name value →
      Names x (.identity name value)

/-- Why the element at a position has no key. -/
inductive Misnames (x : Node) (position : Nat) : MatchError → Prop where
  | unreadable {e : MatchError} : Document.fields x.raw = .error e → Misnames x position e
  | both {fs : Fields} {n m : Node} : Document.fields x.raw = .ok fs →
      fs.get? indexField = some n → fs.get? identityField = some m →
      Misnames x position (.conflictingKeys position)
  | neither {fs : Fields} : Document.fields x.raw = .ok fs →
      fs.get? indexField = none → fs.get? identityField = none →
      Misnames x position (.missingKey position)
  | index {fs : Fields} {n : Node} : Document.fields x.raw = .ok fs →
      fs.get? indexField = some n → fs.get? identityField = none →
      (∀ i, ¬ WritesPosition n i) → Misnames x position (.invalidIndex n)
  | undecodable {fs : Fields} {n : Node} {e : MatchError} : Document.fields x.raw = .ok fs →
      fs.get? indexField = none → fs.get? identityField = some n →
      n.kind = .string → n.stringValue = .error e → Misnames x position e
  | identity {fs : Fields} {n : Node} : Document.fields x.raw = .ok fs →
      fs.get? indexField = none → fs.get? identityField = some n →
      (n.kind = .string → ∃ text, n.stringValue = .ok text) →
      (∀ name value, ¬ WritesIdentity n name value) → Misnames x position (.invalidIdentity n)

/-- Why a key may not come after the keys before it. -/
inductive Clashes : List Key → Key → MatchError → Prop where
  | sort {first key : Key} {rest : List Key} : first.field ≠ key.field →
      Clashes (first :: rest) key .mixedKeys
  | name {first other value value' : String} {rest : List Key} : first ≠ other →
      Clashes (.identity first value :: rest) (.identity other value')
        (.identityNameMismatch first other)
  | index {earlier : List Key} {i : Nat} : .index i ∈ earlier →
      Clashes earlier (.index i) (.duplicateIndex i)
  | identity {earlier : List Key} {name value : String} : .identity name value ∈ earlier →
      Clashes earlier (.identity name value) (.duplicateIdentity name value)

/-- Why an array is refused for the element that comes after those with the keys `earlier`. -/
inductive Offends (earlier : List Key) (x : Node) (e : MatchError) : Prop where
  | alone : Misnames x earlier.length e → Offends earlier x e
  | together {key : Key} : Names x key → Clashes earlier key e → Offends earlier x e

def Keyable (elements : List Node) : Prop :=
  (∃ positions : List Nat, positions.Nodup ∧
    List.Forall₂ (fun x i => Names x (.index i)) elements positions) ∨
  ∃ name, ∃ values : List String, values.Nodup ∧
    List.Forall₂ (fun x value => Names x (.identity name value)) elements values

/-- The key that the element names, and the element without the field that holds it. -/
structure TakenFrom (x : Node) (k : Keyed) : Prop where
  names : Names x k.key
  rest : ∃ fs left, Document.fields x.raw = .ok fs ∧ Document.fields k.raw = .ok left ∧
    left.toList = fs.toList.filter (·.1 ≠ k.key.field) ∧
    left.get? indexField = none ∧ left.get? identityField = none

theorem position?_of_head {text : List Char} (h : '+' ∉ text.head?) :
    position? text =
      if text.isEmpty || !text.all Char.isDigit then none
      else if Text.digitsToNat text < 2 ^ 64 then some (Text.digitsToNat text) else none := by
  unfold position?
  split
  · simp at h
  · rfl

theorem position?_eq_some_iff {x : Bytes} (hx : IsNumber x) {i : Nat} :
    position? (x.map toChar) = some i ↔ IsDigits x ∧ Bytes.toNat x = i ∧ i < 2 ^ 64 := by
  have hplus : '+' ∉ (x.map toChar).head? := by
    obtain ⟨b, t, rfl, hb⟩ := hx.exists_cons
    rw [List.map_cons, List.head?_cons, Option.mem_some_iff]
    rcases hb with rfl | hb
    · decide
    · exact (Binary64.ne_sign_of_isDigit ((isDigit_toChar b).trans hb)).2
  have hdigits : ((x.map toChar).isEmpty || !(x.map toChar).all Char.isDigit) = false ↔
      IsDigits x := by
    simp [IsDigits, isDigit_toChar]
  rw [position?_of_head hplus, ← hdigits, ← digitsToNat_map_toChar]
  grind

section

variable {n : Node} (hn : n.IsValue)

include hn

theorem position?_text {i : Nat} :
    (if n.kind = .number then position? (Text.trim n.text.toList) else none) = some i ↔
      WritesPosition n i := by
  by_cases hkind : n.kind = .number
  · cases hn with
    | @number x hx =>
      rw [if_pos rfl, Node.text, Node.lossy_of_isNumber hx,
        Binary64.trim_of_shows (isDecimal_of_isNumber hx).shows, position?_eq_some_iff hx]
      constructor
      · rintro ⟨hdigits, hvalue, hfits⟩
        exact ⟨rfl, hdigits, hvalue, hfits⟩
      · exact fun h => ⟨h.digits, h.value, h.fits⟩
    | _ => cases hkind
  · rw [if_neg hkind]
    exact iff_of_false (by simp) fun h => hkind h.kind

theorem indexOf_eq_ok_iff {key : Key} :
    indexOf n = .ok key ↔ ∃ i, key = .index i ∧ WritesPosition n i := by
  simp only [← position?_text hn, indexOf]
  generalize (if n.kind = .number then position? (Text.trim n.text.toList) else none) = i?
  cases i? with
  | none => simp
  | some i => simp [eq_comm]

theorem indexOf_eq_error_iff {e : MatchError} :
    indexOf n = .error e ↔ e = .invalidIndex n ∧ ∀ i, ¬ WritesPosition n i := by
  simp only [← position?_text hn, indexOf]
  generalize (if n.kind = .number then position? (Text.trim n.text.toList) else none) = i?
  cases i? with
  | none => simp [eq_comm]
  | some i => simp

end

theorem identity?_of_not_mem {text : List Char} (h : '=' ∉ text) : identity? text = none := by
  have hspan := span_append (p := (decide <| · ≠ '=')) (w := text) (t := [])
    (fun c hc => by simpa using ne_of_mem_of_not_mem hc h) (by simp)
  rw [List.append_nil] at hspan
  rw [identity?, hspan.2]

theorem identity?_append {name : List Char} (h : '=' ∉ name) (value : List Char) :
    identity? (name ++ '=' :: value) =
      if name.isEmpty || value.contains '=' then none
      else some (.identity (String.ofList name) (String.ofList value)) := by
  have hspan := span_append (p := (decide <| · ≠ '=')) (w := name) (t := '=' :: value)
    (fun c hc => by simpa using ne_of_mem_of_not_mem hc h) (by simp)
  rw [identity?, hspan.1, hspan.2]

theorem identity?_eq_some_iff {text : List Char} {key : Key} :
    identity? text = some key ↔ ∃ name value : String, key = .identity name value ∧
      text = name.toList ++ '=' :: value.toList ∧ name ≠ "" ∧ '=' ∉ name.toList ∧
      '=' ∉ value.toList := by
  constructor
  · intro h
    by_cases hmem : '=' ∈ text
    · obtain ⟨name, value, rfl, hname⟩ := List.eq_append_cons_of_mem hmem
      rw [identity?_append hname, Option.ite_none_left_eq_some] at h
      obtain ⟨hparts, hkey⟩ := h
      simp only [Bool.or_eq_true, List.isEmpty_iff, List.contains_iff_mem, not_or] at hparts
      refine ⟨_, _, (Option.some.inj hkey).symm, ?_⟩
      simpa [String.ofList_eq_empty_iff, hname] using hparts
    · rw [identity?_of_not_mem hmem] at h
      cases h
  · rintro ⟨name, value, rfl, rfl, hne, hname, hvalue⟩
    rw [identity?_append hname]
    simp [hne, hvalue]

section

variable {n : Node} {text : String} (hkind : n.kind = .string) (htext : n.stringValue = .ok text)

include hkind htext

theorem identity?_text {key : Key} : identity? text.toList = some key ↔
    ∃ name value, key = .identity name value ∧ WritesIdentity n name value := by
  rw [identity?_eq_some_iff]
  refine exists_congr fun name => exists_congr fun value => and_congr_right fun _ => ?_
  have hlist : text.toList = name.toList ++ '=' :: value.toList ↔ text = name ++ "=" ++ value := by
    rw [← String.toList_inj]
    simp
  rw [hlist]
  constructor
  · rintro ⟨rfl, hne, hname, hvalue⟩
    exact ⟨hkind, htext, hne, hname, hvalue⟩
  · intro h
    exact ⟨Except.ok.inj (htext.symm.trans h.text), h.nonempty, h.name, h.value⟩

theorem identityOf_of_text : identityOf n =
    match identity? text.toList with
    | some key => .ok key
    | none => .error (.invalidIdentity n) := by
  rw [identityOf, if_pos hkind, htext]
  rfl

end

theorem identityOf_eq_ok_iff {n : Node} {key : Key} :
    identityOf n = .ok key ↔
      ∃ name value, key = .identity name value ∧ WritesIdentity n name value := by
  constructor
  · intro h
    by_cases hkind : n.kind = .string
    · cases htext : n.stringValue with
      | error e =>
        rw [identityOf, if_pos hkind, htext] at h
        cases h
      | ok text =>
        rw [identityOf_of_text hkind htext] at h
        rw [← identity?_text hkind htext]
        split at h
        next hkey => rw [hkey, Except.ok.inj h]
        · cases h
    · rw [identityOf, if_neg hkind] at h
      cases h
  · rintro ⟨name, value, rfl, h⟩
    rw [identityOf_of_text h.kind h.text, (identity?_text h.kind h.text).2 ⟨_, _, rfl, h⟩]

theorem identityOf_eq_error_iff {n : Node} {e : MatchError} :
    identityOf n = .error e ↔ n.kind = .string ∧ n.stringValue = .error e ∨
      e = .invalidIdentity n ∧ (n.kind = .string → ∃ text, n.stringValue = .ok text) ∧
        ∀ name value, ¬ WritesIdentity n name value := by
  by_cases hkind : n.kind = .string
  · cases htext : n.stringValue with
    | error e' =>
      rw [identityOf, if_pos hkind, htext]
      simp [bind, Except.bind, hkind]
    | ok text =>
      have hnone : identity? text.toList = none ↔ ∀ name value, ¬ WritesIdentity n name value := by
        simp only [Option.eq_none_iff_forall_ne_some, ne_eq, identity?_text hkind htext]
        grind
      rw [identityOf_of_text hkind htext, ← hnone]
      cases identity? text.toList with
      | none => simp [eq_comm]
      | some key => simp
  · have hno : ∀ name value, ¬ WritesIdentity n name value := fun _ _ h => hkind h.kind
    rw [identityOf, if_neg hkind]
    simp [hkind, hno, eq_comm]

theorem readKey_of_fields {x : Node} {fs : Fields} (h : Document.fields x.raw = .ok fs)
    (position : Nat) : readKey x position =
      match fs.get? indexField, fs.get? identityField with
      | some _, some _ => .error (.conflictingKeys position)
      | none, none => .error (.missingKey position)
      | some n, none => indexOf n
      | none, some n => identityOf n := by
  rw [readKey, h]
  rfl

theorem readKey_eq_ok_iff {x : Node} {position : Nat} {key : Key} :
    readKey x position = .ok key ↔ Names x key := by
  constructor
  · intro h
    obtain ⟨fs, hfs, -⟩ := bind_eq_ok_iff.1 h
    rw [readKey_of_fields hfs] at h
    split at h
    · cases h
    · cases h
    next n hi hid =>
      obtain ⟨i, rfl, hn⟩ := (indexOf_eq_ok_iff (Document.isValue_of_get? hfs hi)).1 h
      exact .index hfs hi hid hn
    next n hi hid =>
      obtain ⟨name, value, rfl, hn⟩ := identityOf_eq_ok_iff.1 h
      exact .identity hfs hi hid hn
  · intro h
    cases h with
    | index hfs hi hid hn =>
      rw [readKey_of_fields hfs, hi, hid]
      exact (indexOf_eq_ok_iff (Document.isValue_of_get? hfs hi)).2 ⟨_, rfl, hn⟩
    | identity hfs hi hid hn =>
      rw [readKey_of_fields hfs, hi, hid]
      exact identityOf_eq_ok_iff.2 ⟨_, _, rfl, hn⟩

theorem readKey_eq_error_iff {x : Node} {position : Nat} {e : MatchError} :
    readKey x position = .error e ↔ Misnames x position e := by
  constructor
  · intro h
    cases hfs : Document.fields x.raw with
    | error e' =>
      rw [readKey, hfs] at h
      obtain rfl := Except.error.inj h
      exact .unreadable hfs
    | ok fs =>
      rw [readKey_of_fields hfs] at h
      split at h
      next hi hid =>
        obtain rfl := Except.error.inj h
        exact .both hfs hi hid
      next hi hid =>
        obtain rfl := Except.error.inj h
        exact .neither hfs hi hid
      next n hi hid =>
        obtain ⟨rfl, hno⟩ := (indexOf_eq_error_iff (Document.isValue_of_get? hfs hi)).1 h
        exact .index hfs hi hid hno
      next n hi hid =>
        rcases identityOf_eq_error_iff.1 h with ⟨hkind, htext⟩ | ⟨rfl, htext, hno⟩
        · exact .undecodable hfs hi hid hkind htext
        · exact .identity hfs hi hid htext hno
  · intro h
    cases h with
    | unreadable hfs =>
      rw [readKey, hfs]
      rfl
    | both hfs hi hid => rw [readKey_of_fields hfs, hi, hid]
    | neither hfs hi hid => rw [readKey_of_fields hfs, hi, hid]
    | index hfs hi hid hno =>
      rw [readKey_of_fields hfs, hi, hid]
      exact (indexOf_eq_error_iff (Document.isValue_of_get? hfs hi)).2 ⟨rfl, hno⟩
    | undecodable hfs hi hid hkind htext =>
      rw [readKey_of_fields hfs, hi, hid]
      exact identityOf_eq_error_iff.2 (.inl ⟨hkind, htext⟩)
    | identity hfs hi hid htext hno =>
      rw [readKey_of_fields hfs, hi, hid]
      exact identityOf_eq_error_iff.2 (.inr ⟨rfl, htext, hno⟩)

theorem hasKey_iff_names {x : Node} {key : Key} : HasKey x key ↔ Names x key :=
  ⟨fun ⟨_, h⟩ => readKey_eq_ok_iff.1 h, fun h => ⟨0, readKey_eq_ok_iff.2 h⟩⟩

theorem indexField_ne : indexField ≠ identityField := by decide

theorem agree_eq_error_iff {first key : Key} {e : MatchError} :
    agree first key = .error e ↔ first.field ≠ key.field ∧ e = .mixedKeys ∨
      ∃ name value other value', first = .identity name value ∧ key = .identity other value' ∧
        name ≠ other ∧ e = .identityNameMismatch name other := by
  cases first with
  | index i => cases key <;> simp [agree, Key.field, indexField_ne.symm, eq_comm]
  | identity name value =>
    cases key with
    | index j => simp [agree, Key.field, indexField_ne.symm, eq_comm]
    | identity other value' =>
      by_cases hname : name = other <;> simp [agree, Key.field, hname, eq_comm]

theorem checkNext_eq_error_iff {earlier : List Key} {key : Key} {e : MatchError}
    (h : Coherent earlier) : checkNext earlier key = .error e ↔ Clashes earlier key e := by
  cases earlier with
  | nil =>
    constructor
    · intro he
      cases he
    · intro hclash
      cases hclash with
      | index hmem => cases hmem
      | identity hmem => cases hmem
  | cons first rest =>
    have hagree (hmem : key ∈ first :: rest) : agree first key = .ok () := by
      obtain ⟨name?, hname⟩ := h.name
      exact agree_eq_ok_iff.2 ((hname first (List.mem_cons_self ..)).trans (hname key hmem).symm)
    have hstep : checkNext (first :: rest) key = .error e ↔ agree first key = .error e ∨
        key ∈ first :: rest ∧ duplicate key = e := by
      refine bind_eq_error_iff.trans (or_congr_right ?_)
      by_cases hmem : key ∈ first :: rest
      · simp only [if_pos hmem, hagree hmem]
        simp [hmem, throw, throwThe, MonadExceptOf.throw]
      · simp only [if_neg hmem]
        simp [hmem, pure, Except.pure]
    rw [hstep, agree_eq_error_iff]
    constructor
    · rintro ((⟨hfield, rfl⟩ | ⟨_, _, _, _, rfl, rfl, hne, rfl⟩) | ⟨hmem, rfl⟩)
      · exact .sort hfield
      · exact .name hne
      · cases key with
        | index i => exact .index hmem
        | identity name value => exact .identity hmem
    · intro hclash
      cases hclash with
      | sort hfield => exact .inl (.inl ⟨hfield, rfl⟩)
      | name hne => exact .inl (.inr ⟨_, _, _, _, rfl, rfl, hne, rfl⟩)
      | index hmem => exact .inr ⟨hmem, rfl⟩
      | identity hmem => exact .inr ⟨hmem, rfl⟩

theorem keyedAfter_eq_error_iff {earlier : List Key} {elements : List Node} {e : MatchError}
    (h : Coherent earlier) :
    keyedAfter earlier elements = .error e ↔
      ∃ before x after keys, elements = before ++ x :: after ∧ List.Forall₂ Names before keys ∧
        Coherent (earlier ++ keys) ∧ Offends (earlier ++ keys) x e := by
  -- by induction on the elements, the keys before them coherent
  induction elements generalizing earlier with
  | nil => simp [keyedAfter]
  | cons x rest ih =>
    simp only [keyedAfter, bind_eq_error_iff, readKey_eq_error_iff, readKey_eq_ok_iff,
      checkNext_eq_error_iff h, ← coherent_concat_iff h]
    constructor
    · rintro (hx | ⟨key, hkey, hclash | ⟨_, hnext, hraw | ⟨raw, hraw, hrest | ⟨_, _, hpure⟩⟩⟩⟩)
      · exact ⟨[], x, rest, [], rfl, .nil, by simpa using h, by simpa using .alone hx⟩
      · exact ⟨[], x, rest, [], rfl, .nil, by simpa using h, by simpa using .together hkey hclash⟩
      · obtain ⟨raw, hok⟩ := (hasKey_iff_names.2 hkey).exists_withoutField key.field
        cases hraw.symm.trans hok
      · obtain ⟨before, y, after, keys, rfl, hbefore, hcoherent, hy⟩ := (ih hnext).1 hrest
        exact ⟨x :: before, y, after, key :: keys, rfl, .cons hkey hbefore,
          by simpa using hcoherent, by simpa using hy⟩
      · cases hpure
    · rintro ⟨before, y, after, keys, hsplit, hbefore, hcoherent, hy⟩
      cases hbefore with
      | nil =>
        obtain ⟨rfl, rfl⟩ := List.cons.inj hsplit
        rw [List.append_nil] at hy
        cases hy with
        | alone hx => exact .inl hx
        | together hkey hclash => exact .inr ⟨_, hkey, .inl hclash⟩
      | @cons x' key before keys hkey hbefore =>
        obtain ⟨rfl, rfl⟩ := List.cons.inj hsplit
        rw [List.append_cons] at hcoherent hy
        have hnext : Coherent (earlier ++ [key]) := hcoherent.sublist (List.sublist_append_left ..)
        obtain ⟨raw, hraw⟩ := (hasKey_iff_names.2 hkey).exists_withoutField key.field
        have hrest := (ih hnext).2 ⟨before, y, after, keys, rfl, hbefore, hcoherent, hy⟩
        exact .inr ⟨key, hkey, .inr ⟨(), hnext, .inr ⟨raw, hraw, .inl hrest⟩⟩⟩

theorem keyed_eq_error_iff {elements : List Node} {e : MatchError} :
    keyed elements = .error e ↔
      ∃ before x after keys, elements = before ++ x :: after ∧ List.Forall₂ Names before keys ∧
        Coherent keys ∧ Offends keys x e := by
  rw [keyed, map_eq_error_iff, keyedAfter_eq_error_iff coherent_nil]
  simp only [List.nil_append]

/-- Of the reserved fields only the one of the key is there, and that one is taken out. -/
theorem takenFrom_of_keyedAs {x : Node} {k : Keyed} (h : KeyedAs x k) : TakenFrom x k := by
  obtain ⟨hkey, hraw⟩ := h
  have hnames := hasKey_iff_names.1 hkey
  obtain ⟨fs, hfs, hleft⟩ := Document.exists_fields_of_withoutField hraw
  have hreserved : (fs.erase k.key.field).get? indexField = none ∧
      (fs.erase k.key.field).get? identityField = none := by
    rw [Fields.get?_erase, Fields.get?_erase]
    obtain ⟨key, raw⟩ := k
    cases hnames with
    | index hfs' _ hid _ =>
      obtain rfl := Except.ok.inj (hfs.symm.trans hfs')
      exact ⟨if_pos rfl, (if_neg indexField_ne.symm).trans hid⟩
    | identity hfs' hi _ _ =>
      obtain rfl := Except.ok.inj (hfs.symm.trans hfs')
      exact ⟨(if_neg indexField_ne).trans hi, if_pos rfl⟩
  exact ⟨hnames, fs, _, hfs, hleft ▸ Document.fields_ofFields_erase hfs _, fs.toList_erase _,
    hreserved⟩

theorem exists_declared {elements : List Node} {keys : List Key}
    (h : List.Forall₂ Names elements keys) :
    ∃ declared, List.Forall₂ KeyedAs elements declared ∧ declared.map Keyed.key = keys := by
  induction h with
  | nil => exact ⟨[], .nil, rfl⟩
  | @cons x key rest keys hx _ ih =>
    obtain ⟨declared, hdeclared, rfl⟩ := ih
    have hkey := hasKey_iff_names.2 hx
    obtain ⟨raw, hraw⟩ := hkey.exists_withoutField key.field
    exact ⟨⟨key, raw⟩ :: declared, .cons ⟨hkey, hraw⟩ hdeclared, rfl⟩

theorem coherent_iff {keys : List Key} : Coherent keys ↔
    (∃ positions : List Nat, positions.Nodup ∧ keys = positions.map .index) ∨
      ∃ name, ∃ values : List String, values.Nodup ∧ keys = values.map (.identity name) := by
  constructor
  · rintro ⟨⟨name?, hname⟩, hnodup⟩
    cases name? with
    | none =>
      obtain ⟨positions, rfl⟩ := exists_eq_map fun key hkey =>
        Key.exists_index_of_name? (hname key hkey)
      exact .inl ⟨positions, .of_map _ hnodup, rfl⟩
    | some name =>
      obtain ⟨values, rfl⟩ := exists_eq_map fun key hkey =>
        Key.exists_identity_of_name? (hname key hkey)
      exact .inr ⟨name, values, .of_map _ hnodup, rfl⟩
  · rintro (⟨positions, hnodup, rfl⟩ | ⟨name, values, hnodup, rfl⟩)
    · exact ⟨⟨none, by simp [Key.name?]⟩, hnodup.map fun _ _ => Key.index.inj⟩
    · exact ⟨⟨some name, by simp [Key.name?]⟩, hnodup.map fun _ _ h => (Key.identity.inj h).2⟩

theorem keyable_iff {elements : List Node} :
    Keyable elements ↔ ∃ keys, List.Forall₂ Names elements keys ∧ Coherent keys := by
  simp only [Keyable, coherent_iff]
  constructor
  · rintro (⟨positions, hnodup, h⟩ | ⟨name, values, hnodup, h⟩)
    · exact ⟨_, List.forall₂_map_right_iff.2 h, .inl ⟨positions, hnodup, rfl⟩⟩
    · exact ⟨_, List.forall₂_map_right_iff.2 h, .inr ⟨name, values, hnodup, rfl⟩⟩
  · rintro ⟨keys, h, ⟨positions, hnodup, rfl⟩ | ⟨name, values, hnodup, rfl⟩⟩
    · exact .inl ⟨positions, hnodup, List.forall₂_map_right_iff.1 h⟩
    · exact .inr ⟨name, values, hnodup, List.forall₂_map_right_iff.1 h⟩

theorem exists_keyed_iff {elements : List Node} :
    (∃ pairs, keyed elements = .ok pairs) ↔ Keyable elements := by
  rw [keyable_iff]
  simp only [keyed_eq_ok_iff]
  constructor
  · rintro ⟨_, declared, hdeclared, hcoherent, -⟩
    have hnames := hdeclared.imp fun x k h => hasKey_iff_names.1 h.1
    exact ⟨_, List.forall₂_map_right_iff.2 hnames, hcoherent⟩
  · rintro ⟨keys, hkeys, hcoherent⟩
    obtain ⟨declared, hdeclared, rfl⟩ := exists_declared hkeys
    exact ⟨_, declared, hdeclared, hcoherent, rfl⟩

theorem keyed_ordered {elements : List Node} {pairs : List Keyed}
    (h : keyed elements = .ok pairs) :
    ∃ declared, List.Forall₂ TakenFrom elements declared ∧ pairs.Perm declared ∧
      ((∃ positions : List Nat, pairs.map Keyed.key = positions.map .index ∧
          positions.Pairwise (· < ·)) ∨
        ∃ name, ∃ values : List String, pairs.map Keyed.key = values.map (.identity name) ∧
          pairs = declared) := by
  obtain ⟨declared, hdeclared, -, hsort⟩ := keyed_eq_ok_iff.1 h
  have hperm : pairs.Perm declared := hsort ▸ List.mergeSort_perm ..
  refine ⟨declared, hdeclared.imp fun _ _ => takenFrom_of_keyedAs, hperm, ?_⟩
  rcases keys_cases h with hindex | ⟨-, name, hidentity⟩
  · obtain ⟨positions, hpositions⟩ := exists_eq_map (List.forall_mem_map.2 hindex)
    have hascending := pairwise_keyed h hindex
    rw [← List.pairwise_map (f := Keyed.key) (R := (·.rank < ·.rank)), hpositions,
      List.pairwise_map] at hascending
    exact .inl ⟨positions, hpositions, hascending⟩
  · obtain ⟨values, hvalues⟩ := exists_eq_map (List.forall_mem_map.2 hidentity)
    have hsame := mergeSort_of_identities fun k hk => hidentity k (hperm.mem_iff.2 hk)
    exact .inr ⟨name, values, hvalues, hsort.symm.trans hsame⟩

/-- Keys can be had exactly if all elements say what they stand for, in one way and no two the
same. Then each element is there once, with its key and without the field that held it. Otherwise
the first element that is wrong after those before it tells why, whatever comes after it. -/
theorem keyed_accounted (elements : List Node) :
    ((∃ pairs, keyed elements = .ok pairs) ↔ Keyable elements) ∧
    (∀ pairs, keyed elements = .ok pairs →
      ∃ declared, List.Forall₂ TakenFrom elements declared ∧ pairs.Perm declared ∧
        ((∃ positions : List Nat, pairs.map Keyed.key = positions.map .index ∧
            positions.Pairwise (· < ·)) ∨
          ∃ name, ∃ values : List String, pairs.map Keyed.key = values.map (.identity name) ∧
            pairs = declared)) ∧
    (∀ e, keyed elements = .error e ↔
      ∃ before x after keys, elements = before ++ x :: after ∧ List.Forall₂ Names before keys ∧
        Coherent keys ∧ Offends keys x e) ∧
    ∀ e more, keyed elements = .error e → keyed (elements ++ more) = .error e := by
  refine ⟨exists_keyed_iff, fun pairs h => keyed_ordered h, fun e => keyed_eq_error_iff, ?_⟩
  intro e more h
  obtain ⟨before, x, after, keys, rfl, hkeys, hcoherent, hx⟩ := keyed_eq_error_iff.1 h
  exact keyed_eq_error_iff.2 ⟨before, x, after ++ more, keys, by simp, hkeys, hcoherent, hx⟩

/-- What is wrong with an element by itself comes before what is wrong with it after another. -/
example :
    (Document.elements (Bytes.ofString
      "[\x7b\"_gst_index\":1\x7d, \x7b\"_gst_id\":\"id\"\x7d]")).bind keyed =
        .error (.invalidIdentity ⟨.string, Bytes.ofString "\"id\""⟩) := by cbv

end DocMatch.Correlation
