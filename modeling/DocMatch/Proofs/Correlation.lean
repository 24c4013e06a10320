import DocMatch.Correlation.Arrays
import DocMatch.Proofs.Sequence

/-!
What correlation pairs. An expected element stands for the position or the identity that its
reserved field names, and it is compared without that field. An identity stands for the first
actual element that has it. Main statements: `keyed_eq_ok_iff`, `stripped_of_mem_keyed`,
`forall₂_identityTexts` and `first_eq_some_iff`.
-/

namespace DocMatch.Correlation

/-- The reserved field of the element holds the key. The position only shows in errors. -/
def HasKey (element : Node) (key : Key) : Prop := ∃ position, readKey element position = .ok key

/-- The element that names the key, its reserved field taken out. -/
def Stripped (elements : List Node) (key : Key) (n : Node) : Prop :=
  ∃ x ∈ elements, HasKey x key ∧
    ∃ raw, Document.withoutField x.raw key.field = .ok raw ∧ n = ⟨.object, raw⟩

def IdentifiedBy (name : String) (n : Node) (value : String) : Prop :=
  n.kind = .object ∧
    ∃ fs f, Document.fields n.raw = .ok fs ∧ fs.get? name = some f ∧ f.keyText = .ok value

/-- The first of the nodes that has the identity. -/
def FirstWith (name value : String) (nodes : List Node) (n : Node) : Prop :=
  ∃ i : Nat, nodes[i]? = some n ∧ IdentifiedBy name n value ∧
    ∀ j < i, ∀ m, nodes[j]? = some m → ¬ IdentifiedBy name m value

def Lacks (name : String) (n : Node) : Prop :=
  n.kind ≠ .object ∨ ∃ fs, Document.fields n.raw = .ok fs ∧ fs.get? name = none

/-- Why the node at a position has no identity. -/
inductive Unidentified (name : String) (n : Node) (position : Nat) : MatchError → Prop where
  | lacks : Lacks name n → Unidentified name n position (.missingIdentity name position)
  | unreadable {e : MatchError} : n.kind = .object → Document.fields n.raw = .error e →
      Unidentified name n position e
  | undecodable {fs : Fields} {f : Node} {e : MatchError} : n.kind = .object →
      Document.fields n.raw = .ok fs → fs.get? name = some f → f.keyText = .error e →
      Unidentified name n position e

theorem FirstWith.mem {name value : String} {nodes : List Node} {n : Node}
    (h : FirstWith name value nodes n) : n ∈ nodes := by
  obtain ⟨i, hi, -⟩ := h
  exact List.mem_of_getElem? hi

theorem IdentifiedBy.unique {name value value' : String} {n : Node}
    (h : IdentifiedBy name n value) (h' : IdentifiedBy name n value') : value = value' := by
  obtain ⟨-, fs, f, hfs, hf, htext⟩ := h
  obtain ⟨-, fs', f', hfs', hf', htext'⟩ := h'
  obtain rfl : fs = fs' := Except.ok.inj (hfs.symm.trans hfs')
  obtain rfl : f = f' := Option.some.inj (hf.symm.trans hf')
  exact Except.ok.inj (htext.symm.trans htext')

theorem FirstWith.identifiedBy {name value : String} {nodes : List Node} {n : Node}
    (h : FirstWith name value nodes n) : IdentifiedBy name n value := by
  obtain ⟨-, -, hvalue, -⟩ := h
  exact hvalue

theorem FirstWith.unique {name value : String} {nodes : List Node} {n n' : Node}
    (h : FirstWith name value nodes n) (h' : FirstWith name value nodes n') : n = n' := by
  obtain ⟨i, hi, hn, hfirst⟩ := h
  obtain ⟨j, hj, hn', hfirst'⟩ := h'
  rcases Nat.lt_trichotomy i j with hij | rfl | hji
  · exact absurd hn (hfirst' i hij n hi)
  · exact Option.some.inj (hi.symm.trans hj)
  · exact absurd hn' (hfirst j hji n' hj)

theorem HasKey.readKey {x : Node} {key : Key} (h : HasKey x key) (position : Nat) :
    readKey x position = .ok key := by
  obtain ⟨i, hi⟩ := h
  simp only [Correlation.readKey, bind_eq_ok_iff] at hi ⊢
  obtain ⟨fs, hfs, hi⟩ := hi
  refine ⟨fs, hfs, ?_⟩
  split at hi
  · cases hi
  · cases hi
  · exact hi
  · exact hi

theorem HasKey.unique {x : Node} {key key' : Key} (h : HasKey x key) (h' : HasKey x key') :
    key = key' :=
  Except.ok.inj ((h.readKey 0).symm.trans (h'.readKey 0))

theorem HasKey.exists_withoutField {x : Node} {key : Key} (h : HasKey x key) (name : String) :
    ∃ raw, Document.withoutField x.raw name = .ok raw := by
  obtain ⟨position, hkey⟩ := h
  simp only [Correlation.readKey, bind_eq_ok_iff] at hkey
  obtain ⟨fs, hfs, -⟩ := hkey
  exact ⟨_, bind_eq_ok_iff.2 ⟨fs, hfs, rfl⟩⟩

/-- The name that identities are given under, `none` for a position. -/
def Key.name? : Key → Option String
  | index _ => none
  | identity name _ => some name

theorem Key.exists_index_of_name? {key : Key} (h : key.name? = none) : ∃ i, key = .index i := by
  cases key with
  | index i => exact ⟨i, rfl⟩
  | identity => cases h

theorem Key.exists_identity_of_name? {key : Key} {name : String} (h : key.name? = some name) :
    ∃ value, key = .identity name value := by
  cases key with
  | index => cases h
  | identity name' value =>
    obtain rfl : name' = name := Option.some.inj h
    exact ⟨value, rfl⟩

theorem agree_eq_ok_iff {k k' : Key} : agree k k' = .ok () ↔ k.name? = k'.name? := by
  cases k <;> cases k' <;> simp [agree, Key.name?]

/-- Keys that may stand in one array: all of them positions, or all identities under one name, and
none of them twice. -/
structure Coherent (keys : List Key) : Prop where
  name : ∃ name?, ∀ k ∈ keys, k.name? = name?
  nodup : keys.Nodup

theorem coherent_nil : Coherent [] := ⟨⟨none, by simp⟩, List.nodup_nil⟩

theorem Coherent.sublist {keys keys' : List Key} (h : Coherent keys) (hsub : keys'.Sublist keys) :
    Coherent keys' := by
  obtain ⟨name?, hname⟩ := h.name
  exact ⟨⟨name?, fun k hk => hname k (hsub.subset hk)⟩, h.nodup.sublist hsub⟩

theorem checkNext_eq_ok_iff {earlier : List Key} {key : Key} :
    checkNext earlier key = .ok () ↔
      (∀ first ∈ earlier.head?, first.name? = key.name?) ∧ key ∉ earlier := by
  have hfresh : (if key ∈ earlier then throw (duplicate key) else pure () : Except MatchError Unit) =
      .ok () ↔ key ∉ earlier := by
    split
    next h => simp [h, throw, throwThe, MonadExceptOf.throw]
    next h => simp [h, pure, Except.pure]
  unfold checkNext
  cases earlier.head? with
  | none => simpa using hfresh
  | some first =>
    refine bind_eq_ok_iff.trans ⟨fun ⟨_, hagree, hrest⟩ => ?_, fun ⟨hname, hrest⟩ => ?_⟩
    · refine ⟨fun first' hfirst => ?_, hfresh.1 hrest⟩
      obtain rfl := Option.some.inj hfirst
      exact agree_eq_ok_iff.1 hagree
    · exact ⟨(), agree_eq_ok_iff.2 (hname first rfl), hfresh.2 hrest⟩

theorem coherent_concat_iff {earlier : List Key} {key : Key} (h : Coherent earlier) :
    Coherent (earlier ++ [key]) ↔ checkNext earlier key = .ok () := by
  have hnodup : (earlier ++ [key]).Nodup ↔ key ∉ earlier := by
    simpa [List.nodup_append, h.nodup] using List.forall_mem_ne'
  rw [checkNext_eq_ok_iff, ← hnodup]
  obtain ⟨name?, hname⟩ := h.name
  constructor
  · rintro ⟨⟨other?, hother⟩, hnodup⟩
    refine ⟨fun first hfirst => ?_, hnodup⟩
    rw [hother first (by simp [List.mem_of_mem_head? hfirst]), hother key (by simp)]
  · rintro ⟨hfirst, hnodup⟩
    refine ⟨⟨key.name?, List.forall_mem_append.2 ⟨fun k hk => ?_, by simp⟩⟩, hnodup⟩
    obtain ⟨first, rest, rfl⟩ := List.exists_cons_of_ne_nil (List.ne_nil_of_mem hk)
    rw [hname k hk, ← hname first (List.mem_cons_self ..)]
    exact hfirst first rfl

def KeyedAs (x : Node) (k : Keyed) : Prop :=
  HasKey x k.key ∧ Document.withoutField x.raw k.key.field = .ok k.raw

theorem KeyedAs.stripped {x : Node} {k : Keyed} (h : KeyedAs x k) : Stripped [x] k.key k.node :=
  ⟨x, List.mem_singleton_self x, h.1, k.raw, h.2, rfl⟩

theorem KeyedAs.eq_of_stripped {x n : Node} {k : Keyed} {key : Key} (h : KeyedAs x k)
    (hn : Stripped [x] key n) : k.key = key ∧ k.node = n := by
  obtain ⟨y, hy, hkey, raw, hraw, rfl⟩ := hn
  obtain rfl := List.mem_singleton.1 hy
  obtain rfl := h.1.unique hkey
  exact ⟨rfl, congrArg (Node.mk .object) (Except.ok.inj (h.2.symm.trans hraw))⟩

theorem keyedAfter_eq_ok_iff {earlier : List Key} {elements : List Node} {pairs : List Keyed}
    (h : Coherent earlier) :
    keyedAfter earlier elements = .ok pairs ↔
      List.Forall₂ KeyedAs elements pairs ∧ Coherent (earlier ++ pairs.map Keyed.key) := by
  -- by induction on the elements, the keys before them coherent with theirs
  induction elements generalizing earlier pairs with
  | nil =>
    simp only [keyedAfter, Except.ok.injEq, List.forall₂_nil_left_iff]
    constructor
    · rintro rfl
      exact ⟨rfl, by simpa using h⟩
    · exact fun hpairs => hpairs.1.symm
  | cons x rest ih =>
    simp only [keyedAfter, bind_eq_ok_iff, pure, Except.pure, Except.ok.injEq,
      List.forall₂_cons_left_iff]
    constructor
    · rintro ⟨key, hkey, _, hnext, raw, hraw, more, hmore, rfl⟩
      obtain ⟨hrest, hcoherent⟩ := (ih ((coherent_concat_iff h).2 hnext)).1 hmore
      exact ⟨⟨⟨key, raw⟩, more, ⟨⟨_, hkey⟩, hraw⟩, hrest, rfl⟩, by simpa using hcoherent⟩
    · rintro ⟨⟨⟨key, raw⟩, more, ⟨hkey, hraw⟩, hrest, rfl⟩, hcoherent⟩
      have hconcat : Coherent (earlier ++ [key]) := hcoherent.sublist (by simp)
      refine ⟨key, hkey.readKey _, (), (coherent_concat_iff h).1 hconcat, raw, hraw, more, ?_, rfl⟩
      exact (ih hconcat).2 ⟨hrest, by simpa using hcoherent⟩

theorem keyed_eq_ok_iff {elements : List Node} {pairs : List Keyed} :
    keyed elements = .ok pairs ↔
      ∃ declared, List.Forall₂ KeyedAs elements declared ∧ Coherent (declared.map Keyed.key) ∧
        declared.mergeSort (fun a b => a.key.rank ≤ b.key.rank) = pairs := by
  simp only [keyed, map_eq_ok_iff, keyedAfter_eq_ok_iff coherent_nil, List.nil_append, and_assoc]

theorem length_keyed {elements : List Node} {pairs : List Keyed} (h : keyed elements = .ok pairs) :
    pairs.length = elements.length := by
  obtain ⟨declared, hkeyed, -, rfl⟩ := keyed_eq_ok_iff.1 h
  rw [List.length_mergeSort, hkeyed.length_eq]

theorem ne_nil_of_keyed {elements : List Node} {pairs : List Keyed} (hne : elements ≠ [])
    (h : keyed elements = .ok pairs) : pairs ≠ [] := by
  rw [← List.length_pos_iff, length_keyed h]
  exact List.length_pos_iff.2 hne

theorem keys_cases {elements : List Node} {pairs : List Keyed}
    (h : keyed elements = .ok pairs) :
    (∀ k ∈ pairs, ∃ i, k.key = .index i) ∨
      pairs ≠ [] ∧ ∃ name, ∀ k ∈ pairs, ∃ value, k.key = .identity name value := by
  obtain ⟨declared, -, hcoherent, rfl⟩ := keyed_eq_ok_iff.1 h
  obtain ⟨name?, hname⟩ := hcoherent.name
  have hall : ∀ k ∈ declared.mergeSort (fun a b => a.key.rank ≤ b.key.rank),
      k.key.name? = name? :=
    fun k hk => hname k.key (List.mem_map_of_mem (List.mem_mergeSort.1 hk))
  cases name? with
  | none => exact .inl fun k hk => Key.exists_index_of_name? (hall k hk)
  | some name =>
    rcases List.eq_nil_or_concat declared with rfl | ⟨front, last, rfl⟩
    · exact .inl (by simp)
    · refine .inr ⟨?_, name, fun k hk => Key.exists_identity_of_name? (hall k hk)⟩
      rw [← List.length_pos_iff, List.length_mergeSort]
      simp

theorem stripped_of_mem_keyed {elements : List Node} {pairs : List Keyed}
    (h : keyed elements = .ok pairs) {k : Keyed} (hk : k ∈ pairs) :
    Stripped elements k.key k.node := by
  obtain ⟨declared, hkeyed, -, rfl⟩ := keyed_eq_ok_iff.1 h
  obtain ⟨x, hx, hkey, hraw⟩ := exists_of_mem_right hkeyed k (List.mem_mergeSort.1 hk)
  exact ⟨x, hx, hkey, k.raw, hraw, rfl⟩

theorem exists_mem_keyed {elements : List Node} {pairs : List Keyed}
    (h : keyed elements = .ok pairs) {x : Node} (hx : x ∈ elements) : ∃ k ∈ pairs, KeyedAs x k := by
  obtain ⟨declared, hkeyed, -, rfl⟩ := keyed_eq_ok_iff.1 h
  obtain ⟨k, hk, hxk⟩ := exists_of_mem_left hkeyed x hx
  exact ⟨k, List.mem_mergeSort.2 hk, hxk⟩

def identityText (name : String) (position : Nat) (n : Node) : Except MatchError String :=
  if n.kind ≠ .object then .error (.missingIdentity name position)
  else
    match Document.fields n.raw with
    | .error e => .error e
    | .ok fs =>
      match fs.get? name with
      | none => .error (.missingIdentity name position)
      | some f => f.keyText

theorem identityText_eq_ok_iff {name : String} {position : Nat} {n : Node} {value : String} :
    identityText name position n = .ok value ↔ IdentifiedBy name n value := by
  unfold identityText IdentifiedBy
  by_cases hkind : n.kind = .object
  · rw [if_neg (not_not_intro hkind)]
    cases hfs : Document.fields n.raw with
    | error e => simp
    | ok fs =>
      cases hf : fs.get? name with
      | none => simp [hf]
      | some f => simp [hkind, hf]
  · simp [hkind]

theorem identityText_eq_error_iff {name : String} {position : Nat} {n : Node} {e : MatchError} :
    identityText name position n = .error e ↔ Unidentified name n position e := by
  unfold identityText
  constructor
  · intro h
    split at h
    next hkind =>
      obtain rfl := Except.error.inj h
      exact .lacks (.inl hkind)
    next hkind =>
      rw [Decidable.not_not] at hkind
      split at h
      next e' hfs =>
        obtain rfl := Except.error.inj h
        exact .unreadable hkind hfs
      next fs hfs =>
        split at h
        next hf =>
          obtain rfl := Except.error.inj h
          exact .lacks (.inr ⟨fs, hfs, hf⟩)
        next f hf => exact .undecodable hkind hfs hf h
  · rintro (hlacks | ⟨hkind, hfs⟩ | ⟨hkind, hfs, hf, htext⟩)
    · split
      · rfl
      next hkind =>
        obtain ⟨fs, hfs, hf⟩ := hlacks.resolve_left hkind
        simp only [hfs, hf]
    · simp only [hkind, hfs, ne_eq, not_true_eq_false, if_false]
    · simp only [hkind, hfs, hf, htext, ne_eq, not_true_eq_false, if_false]

theorem Unidentified.unique {name : String} {n : Node} {position : Nat} {e e' : MatchError}
    (h : Unidentified name n position e) (h' : Unidentified name n position e') : e = e' :=
  Except.error.inj ((identityText_eq_error_iff.2 h).symm.trans (identityText_eq_error_iff.2 h'))

theorem Unidentified.not_identifiedBy {name value : String} {n : Node} {position : Nat}
    {e : MatchError} (h : Unidentified name n position e) : ¬ IdentifiedBy name n value :=
  fun hvalue =>
    nomatch (identityText_eq_error_iff.2 h).symm.trans (identityText_eq_ok_iff.2 hvalue)

theorem identityTexts_cons (name : String) (position : Nat) (n : Node) (rest : List Node) :
    identityTexts name position (n :: rest) =
      match identityText name position n with
      | .error e => .error e
      | .ok text =>
        match identityTexts name (position + 1) rest with
        | .error e => .error e
        | .ok more => .ok (text :: more) := by
  simp only [identityTexts, identityText, bind, Except.bind, throw, throwThe, MonadExceptOf.throw]
  split
  · rfl
  cases Document.fields n.raw with
  | error e => rfl
  | ok fs =>
    dsimp only
    cases fs.get? name with
    | none => rfl
    | some f =>
      dsimp only
      cases f.keyText with
      | error e => rfl
      | ok text => cases identityTexts name (position + 1) rest <;> rfl

theorem forall₂_identityTexts {name : String} {position : Nat} {nodes : List Node}
    {texts : List String} (h : identityTexts name position nodes = .ok texts) :
    List.Forall₂ (IdentifiedBy name) nodes texts := by
  induction nodes generalizing position texts with
  | nil =>
    obtain rfl : [] = texts := Except.ok.inj h
    exact .nil
  | cons n rest ih =>
    rw [identityTexts_cons] at h
    split at h
    · simp at h
    next text htext =>
      split at h
      · simp at h
      next more hmore =>
        obtain rfl : text :: more = texts := Except.ok.inj h
        exact .cons (identityText_eq_ok_iff.1 htext) (ih hmore)

theorem exists_identityTexts {name : String} {nodes : List Node}
    (h : ∀ n ∈ nodes, ∃ value, IdentifiedBy name n value) (position : Nat) :
    ∃ texts, identityTexts name position nodes = .ok texts := by
  induction nodes generalizing position with
  | nil => exact ⟨[], rfl⟩
  | cons n rest ih =>
    obtain ⟨text, htext⟩ := h n (List.mem_cons_self ..)
    obtain ⟨more, hmore⟩ := ih (fun m hm => h m (List.mem_cons_of_mem _ hm)) (position + 1)
    exact ⟨text :: more, by rw [identityTexts_cons, identityText_eq_ok_iff.2 htext, hmore]⟩

theorem exists_unidentified {name : String} {position : Nat} {nodes : List Node} {e : MatchError}
    (h : identityTexts name position nodes = .error e) :
    ∃ before n after, nodes = before ++ n :: after ∧
      (∀ m ∈ before, ∃ value, IdentifiedBy name m value) ∧
      Unidentified name n (position + before.length) e := by
  -- by induction on the nodes, the first one without an identity at the position reached
  induction nodes generalizing position with
  | nil => cases h
  | cons n rest ih =>
    rw [identityTexts_cons] at h
    split at h
    next e' hn =>
      obtain rfl := Except.error.inj h
      exact ⟨[], n, rest, rfl, by simp, identityText_eq_error_iff.1 hn⟩
    next text htext =>
      split at h
      next e' hrest =>
        obtain rfl := Except.error.inj h
        obtain ⟨before, m, after, rfl, hbefore, hm⟩ := ih hrest
        refine ⟨n :: before, m, after, rfl, List.forall_mem_cons.2 ⟨?_, hbefore⟩, ?_⟩
        · exact ⟨text, identityText_eq_ok_iff.1 htext⟩
        · rwa [List.length_cons, Nat.add_comm before.length, ← Nat.add_assoc]
      · cases h

section

variable {name value : String} {nodes : List Node} {texts : List String}
  (h : List.Forall₂ (IdentifiedBy name) nodes texts)

include h

theorem identifiedBy_iff {i : Nat} {n : Node} (hn : nodes[i]? = some n) :
    IdentifiedBy name n value ↔ texts[i]? = some value := by
  induction h generalizing i with
  | nil => simp at hn
  | cons hab _ ih =>
    cases i with
    | zero =>
      obtain rfl : _ = n := Option.some.inj hn
      simp only [List.getElem?_cons_zero, Option.some.injEq]
      exact ⟨fun hv => hab.unique hv, fun hv => hv ▸ hab⟩
    | succ i => exact ih hn

theorem idxOf?_eq_some_iff {i : Nat} {n : Node} (hn : nodes[i]? = some n) :
    texts.idxOf? value = some i ↔
      IdentifiedBy name n value ∧
        ∀ j < i, ∀ m, nodes[j]? = some m → ¬ IdentifiedBy name m value := by
  have hi := List.getElem?_eq_some_iff.1 hn
  rw [List.idxOf?_eq_some_iff, identifiedBy_iff h hn]
  constructor
  · rintro ⟨hlt, hvalue, hfirst⟩
    refine ⟨List.getElem?_eq_some_iff.2 ⟨hlt, hvalue⟩, fun j hj m hm => ?_⟩
    rw [identifiedBy_iff h hm]
    intro htext
    exact hfirst j hj (List.getElem?_eq_some_iff.1 htext).2
  · rintro ⟨htext, hfirst⟩
    obtain ⟨hlt, hvalue⟩ := List.getElem?_eq_some_iff.1 htext
    refine ⟨hlt, hvalue, fun j hj heq => ?_⟩
    have hjn : j < nodes.length := Nat.lt_trans hj hi.1
    refine hfirst j hj nodes[j] (List.getElem?_eq_getElem hjn) ?_
    rw [identifiedBy_iff h (List.getElem?_eq_getElem hjn)]
    exact List.getElem?_eq_some_iff.2 ⟨Nat.lt_trans hj hlt, heq⟩

/-- The place of an identity among the texts is that of the first node that has it. -/
theorem first_eq_some_iff {n : Node} :
    (texts.idxOf? value).bind (nodes[·]?) = some n ↔ FirstWith name value nodes n := by
  rw [Option.bind_eq_some_iff]
  refine exists_congr fun i => ⟨fun ⟨hi, hn⟩ => ⟨hn, (idxOf?_eq_some_iff h hn).1 hi⟩, ?_⟩
  rintro ⟨hn, hfirst⟩
  exact ⟨(idxOf?_eq_some_iff h hn).2 hfirst, hn⟩

theorem first_eq_none_iff :
    (texts.idxOf? value).bind (nodes[·]?) = none ↔ ∀ n ∈ nodes, ¬ IdentifiedBy name n value := by
  rw [Option.bind_eq_none_iff]
  constructor
  · intro hnone n hn hvalue
    obtain ⟨i, hi⟩ := List.mem_iff_getElem?.1 hn
    have htext := (identifiedBy_iff h hi).1 hvalue
    have hsome := List.isSome_idxOf?.2 (List.mem_of_getElem? htext)
    obtain ⟨j, hj⟩ := Option.isSome_iff_exists.1 hsome
    have hlt := (List.idxOf?_eq_some_iff.1 hj).1
    rw [← h.length_eq] at hlt
    exact absurd (hnone j hj) (by simp [hlt])
  · intro hno i hi
    obtain ⟨hlt, hvalue, -⟩ := List.idxOf?_eq_some_iff.1 hi
    have hin : i < nodes.length := h.length_eq ▸ hlt
    refine absurd ?_ (hno nodes[i] (List.getElem_mem hin))
    rw [identifiedBy_iff h (List.getElem?_eq_getElem hin)]
    exact List.getElem?_eq_some_iff.2 ⟨hlt, hvalue⟩

theorem exists_firstWith_or (value : String) :
    (∃ n, FirstWith name value nodes n) ∨ ∀ n ∈ nodes, ¬ IdentifiedBy name n value := by
  rw [← first_eq_none_iff h]
  cases hfirst : (texts.idxOf? value).bind (nodes[·]?) with
  | none => exact .inr rfl
  | some n => exact .inl ⟨n, (first_eq_some_iff h).1 hfirst⟩

end

end DocMatch.Correlation
