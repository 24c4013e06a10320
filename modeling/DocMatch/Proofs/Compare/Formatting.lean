import Mathlib
import DocMatch.Proofs.Compare.Step
import DocMatch.Proofs.Correlation.Permutation
import DocMatch.Proofs.Formatting.Keys

/-!
Formatting has no part in how a comparison ends. Documents that show the same tree match the same
documents, differ from others at the same place, and fail at the same place with the same variant of
error. Only an identity that is no scalar would be told by its bytes. Main statement:
`documents_sameEnd`.
-/

namespace DocMatch

/-- Verdicts of one sort about one place, with errors of one variant. -/
inductive Verdict.SameEnd : Verdict → Verdict → Prop where
  | matched : SameEnd .matched .matched
  | mismatch {d d' : Diagnostic} : d.path = d'.path → SameEnd (.mismatch d) (.mismatch d')
  | failed {d d' : Diagnostic} {error error' : MatchError} :
      d.path = d'.path → error.ctorIdx = error'.ctorIdx →
      SameEnd (.failed d error) (.failed d' error')

namespace Verdict.SameEnd

theorem refl (v : Verdict) : SameEnd v v := by
  cases v with
  | matched => exact .matched
  | mismatch d => exact .mismatch rfl
  | failed d error => exact .failed rfl rfl

theorem matched_iff {v v' : Verdict} (h : SameEnd v v') : v = .matched ↔ v' = .matched := by
  cases h <;> simp

theorem first_map {α β : Type} {R : α → β → Prop} {as : List α} {bs : List β} {f : α → Verdict}
    {g : β → Verdict} (h : List.Forall₂ R as bs)
    (hfg : ∀ a ∈ as, ∀ b, R a b → SameEnd (f a) (g b)) :
    SameEnd (.first (as.map f)) (.first (bs.map g)) := by
  refine rel_first .matched (fun _ _ => matched_iff) ?_
  induction h with
  | nil => exact .nil
  | cons hab _ ih =>
    obtain ⟨ha, has⟩ := List.forall_mem_cons.1 hfg
    exact .cons (ha _ hab) (ih has)

theorem ofTest {d d' : Diagnostic} (hpath : d.path = d'.path) (test : Except MatchError Bool) :
    SameEnd (.ofTest d test) (.ofTest d' test) := by
  rcases test with error | _ | _
  · exact .failed hpath rfl
  · exact .mismatch hpath
  · exact .matched

end Verdict.SameEnd

theorem rel_getElem? {α β : Type} {R : α → β → Prop} {as : List α} {bs : List β}
    (h : List.Forall₂ R as bs) (i : Nat) : Option.Rel R as[i]? bs[i]? := by
  induction h generalizing i with
  | nil => exact .none
  | cons hab _ ih =>
    cases i with
    | zero => exact .some hab
    | succ i => exact ih i

section

variable {nodes nodes' : List Node} (h : List.Forall₂ (Alike .exact) nodes nodes')

include h

theorem map_kind_eq : nodes.map Node.kind = nodes'.map Node.kind := by
  induction h with
  | nil => rfl
  | cons hn _ ih => rw [List.map_cons, List.map_cons, hn.kind_eq, ih]

theorem all_kind_eq (p : Kind → Bool) : nodes.all (p ·.kind) = nodes'.all (p ·.kind) := by
  have hkinds := congrArg (·.all p) (map_kind_eq h)
  rwa [List.all_map, List.all_map] at hkinds

theorem eq_of_forall_isPrimitive (hnodes : ∀ n ∈ nodes, n.isPrimitive = true) :
    nodes = nodes' := by
  induction h with
  | nil => rfl
  | cons hn _ ih =>
    obtain ⟨hprimitive, hrest⟩ := List.forall_mem_cons.1 hnodes
    rw [hn.eq_of_exact hprimitive, ih hrest]

theorem rel_find? (p : Kind → Bool) :
    Option.Rel (Alike .exact) (nodes.find? (p ·.kind)) (nodes'.find? (p ·.kind)) := by
  induction h with
  | nil => exact .none
  | @cons n n' _ _ hn _ ih =>
    rw [List.find?_cons, List.find?_cons, hn.kind_eq]
    split
    · exact .some hn
    · exact ih

end

namespace Compare

open Correlation Document Json Verdict

/-- Wherever elements are paired by identities, it is scalars that show those of actual elements. -/
structure ScalarIdentities (e a : Node) : Prop where
  scalarAt {path : String} {e' a' : Node} {es as : List Node} {pairs : List Keyed} {name : String} :
    Reaches e a path e' a' → e'.kind = .array → elements e'.raw = .ok es →
      keyed es = .ok pairs → (∃ k ∈ pairs, k.key.name? = some name) →
      a'.kind = .array → elements a'.raw = .ok as → ∀ n ∈ as, ScalarAt name n

namespace ScalarIdentities

variable {e a : Node}

theorem step {e' a' : Node} {segment : String} (h : ScalarIdentities e a)
    (hstep : Step e a segment e' a') : ScalarIdentities e' a' where
  scalarAt hreach := h.scalarAt (.step hstep hreach)

theorem of_isPrimitive (he : e.isPrimitive = true) : ScalarIdentities e a where
  scalarAt hreach hkind := by
    cases hreach with
    | here => simp [Node.isPrimitive, hkind, Kind.isPrimitive] at he
    | step hstep _ =>
      cases hstep with
      | field h => simp [Node.isPrimitive, h, Kind.isPrimitive] at he
      | index h => simp [Node.isPrimitive, h, Kind.isPrimitive] at he
      | identity h => simp [Node.isPrimitive, h, Kind.isPrimitive] at he

theorem of_object {fs gs : Fields} (hkind : e.kind = .object) (hfs : fields e.raw = .ok fs)
    (hgs : fields a.raw = .ok gs)
    (h : ∀ name n b, fs.get? name = some n → gs.get? name = some b → ScalarIdentities n b) :
    ScalarIdentities e a where
  scalarAt hreach hekind := by
    cases hreach with
    | here => simp [hkind] at hekind
    | step hstep hrest =>
      cases hstep with
      | field _ hfs' hn _ hgs' hb =>
        obtain rfl := Except.ok.inj (hfs.symm.trans hfs')
        obtain rfl := Except.ok.inj (hgs.symm.trans hgs')
        exact (h _ _ _ hn hb).scalarAt hrest hekind
      | index h => simp [hkind] at h
      | identity h => simp [hkind] at h

theorem of_array {es as : List Node} {pairs : List Keyed} (hkind : e.kind = .array)
    (hes : elements e.raw = .ok es) (has : elements a.raw = .ok as) (hpairs : keyed es = .ok pairs)
    (hscalar : ∀ name, (∃ k ∈ pairs, k.key.name? = some name) → ∀ n ∈ as, ScalarAt name n)
    (h : ∀ k ∈ pairs, ∀ b ∈ as, ScalarIdentities k.node b) : ScalarIdentities e a where
  scalarAt hreach hekind hes' hpairs' hname hakind has' := by
    have hbelow {key : Key} {n b : Node} (hn : Stripped es key n) (hb : b ∈ as) :
        ScalarIdentities n b := by
      obtain ⟨k, hk, -, rfl⟩ := (stripped_iff_of_keyed hpairs).1 hn
      exact h k hk b hb
    cases hreach with
    | here =>
      obtain rfl := Except.ok.inj (hes.symm.trans hes')
      obtain rfl := Except.ok.inj (has.symm.trans has')
      obtain rfl := Except.ok.inj (hpairs.symm.trans hpairs')
      exact hscalar _ hname
    | step hstep hrest =>
      cases hstep with
      | field h => simp [hkind] at h
      | index _ hes₁ hn _ has₁ hb =>
        obtain rfl := Except.ok.inj (hes.symm.trans hes₁)
        obtain rfl := Except.ok.inj (has.symm.trans has₁)
        exact (hbelow hn (List.mem_of_getElem? hb)).scalarAt hrest hekind hes' hpairs' hname hakind
          has'
      | identity _ hes₁ hn _ has₁ hb =>
        obtain rfl := Except.ok.inj (hes.symm.trans hes₁)
        obtain rfl := Except.ok.inj (has.symm.trans has₁)
        exact (hbelow hn hb.mem).scalarAt hrest hekind hes' hpairs' hname hakind has'

end ScalarIdentities

section

variable {s t : Spelling} {e e' a a' : Node} {path : String}

theorem wrongKind_sameEnd : SameEnd (wrongKind path e a) (wrongKind path e' a') :=
  .failed rfl rfl

theorem byValue_sameEnd (test : Except MatchError Bool) :
    SameEnd (.ofTest (byValue path e a) test) (.ofTest (byValue path e' a') test) := by
  refine .ofTest ?_ test
  rfl

variable (he : Alike s e e') (ha : Alike t a a')

include he ha

theorem string_sameEnd : SameEnd (string path e a) (string path e' a') := by
  unfold string
  rw [he.kind_eq, he.stringValue_eq, ha.stringValue_eq]
  split
  · exact wrongKind_sameEnd
  · exact byValue_sameEnd _

theorem number_sameEnd {config : Config} (hkind : a.kind = .number) :
    SameEnd (number config path e a) (number config path e' a') := by
  have hprimitive : a.isPrimitive = true := by rw [Node.isPrimitive, hkind]; rfl
  obtain rfl := ha.eq_of_ne_string hprimitive (by simp [hkind])
  unfold number
  dsimp only
  split
  · exact .failed rfl rfl
  rw [he.kind_eq, he.stringValue_eq]
  split
  next => exact byValue_sameEnd _
  next hekind =>
    have heprimitive : e.isPrimitive = true := by rw [Node.isPrimitive, he.kind_eq, hekind]; rfl
    rw [he.eq_of_ne_string heprimitive (by simp [he.kind_eq, hekind])]
    exact byValue_sameEnd _
  next => exact .failed rfl rfl

theorem boolean_sameEnd (hkind : a.kind = .boolean) :
    SameEnd (boolean path e a) (boolean path e' a') := by
  have hprimitive : a.isPrimitive = true := by rw [Node.isPrimitive, hkind]; rfl
  obtain rfl := ha.eq_of_ne_string hprimitive (by simp [hkind])
  unfold boolean
  by_cases hekind : e.kind = .boolean
  · have heprimitive : e.isPrimitive = true := by rw [Node.isPrimitive, hekind]; rfl
    obtain rfl := he.eq_of_ne_string heprimitive (by simp [hekind])
    rw [if_neg (not_not_intro hekind)]
    exact byValue_sameEnd _
  · have hekind' : e'.kind ≠ .boolean := he.kind_eq ▸ hekind
    rw [if_pos hekind, if_pos hekind']
    exact wrongKind_sameEnd

omit ha in
theorem null_sameEnd : SameEnd (null path e a) (null path e' a') := by
  unfold null
  rw [he.kind_eq, he.stringValue_eq]
  split
  next => exact .matched
  next =>
    split
    · exact .failed rfl rfl
    · exact byValue_sameEnd _
    · exact wrongKind_sameEnd
  next => exact wrongKind_sameEnd

omit ha in
theorem mayBeMissing_eq : mayBeMissing e = mayBeMissing e' := by
  rw [mayBeMissing, mayBeMissing, he.kind_eq, he.stringValue_eq]

omit ha in
theorem missing_sameEnd : SameEnd (missing path e) (missing path e') := by
  unfold missing
  rw [mayBeMissing_eq he]
  split
  · exact .failed rfl rfl
  · exact .matched
  · exact .mismatch rfl

omit ha in
theorem arrayLength_sameEnd (count : Nat) :
    SameEnd (arrayLength path e a count) (arrayLength path e' a' count) := by
  unfold arrayLength
  rw [he.stringValue_eq]
  exact byValue_sameEnd _

end

theorem comparePrimitives_sameEnd {path : String} {es es' as as' : List Node}
    (hes : List.Forall₂ (Alike .exact) es es') (has : List.Forall₂ (Alike .exact) as as')
    (hprimitive : es.all Node.isPrimitive = true) :
    SameEnd (comparePrimitives path es as) (comparePrimitives path es' as') := by
  unfold comparePrimitives
  rcases rel_cases (rel_find? has (!·.isPrimitive)) with ⟨hn, hn'⟩ | ⟨n, n', hn, hn', hfound⟩
  · have hall : ∀ n ∈ as, n.isPrimitive = true := by simpa [Node.isPrimitive] using hn
    obtain rfl := eq_of_forall_isPrimitive has hall
    obtain rfl := eq_of_forall_isPrimitive hes (by simpa using hprimitive)
    split
    · exact .failed rfl rfl
    · split
      · exact .matched
      · exact .mismatch rfl
  · simp only [Node.isPrimitive, hn, hn']
    exact .failed rfl rfl

/-- On the pairs one step below, the verdicts of `c` do not depend on formatting. -/
structure SameEndBelow (c : String → Node → Node → Verdict) (e a : Node) : Prop where
  sameEnd {s t : Spelling} {segment p : String} {e₁ e₁' a₁ a₁' : Node} :
    Step e a segment e₁ a₁ → Alike s e₁ e₁' → Alike t a₁ a₁' → SameEnd (c p e₁ a₁) (c p e₁' a₁')

section

variable {config : Config} {c : String → Node → Node → Verdict} {path : String} {e a : Node}
  (hc : SameEndBelow c e a)

include hc

theorem atField_sameEnd {fs gs gs' : Fields} (hekind : e.kind = .object)
    (hfs : fields e.raw = .ok fs) (hakind : a.kind = .object) (hgs : fields a.raw = .ok gs)
    (hfields : AlikeFields gs gs') {f f' : Field} (hf : f ∈ fs.toList)
    (hff' : f.1 = f'.1 ∧ Alike .free f.2 f'.2) :
    SameEnd (atField c path gs f) (atField c path gs' f') := by
  obtain ⟨name, n⟩ := f
  obtain ⟨name', n'⟩ := f'
  obtain ⟨rfl, hn⟩ : name = name' ∧ Alike .free n n' := hff'
  have hsome : fs.get? name = some n := Fields.get?_of_mem hf
  unfold atField
  dsimp only
  rcases rel_cases (hfields name) with ⟨hb, hb'⟩ | ⟨b, b', hb, hb', halike⟩
  · rw [hb, hb']
    exact missing_sameEnd hn
  · rw [hb, hb']
    exact hc.sameEnd (.field hekind hfs hsome hakind hgs hb) hn halike

section

variable {es es' as as' : List Node} (hekind : e.kind = .array) (hes : elements e.raw = .ok es)
  (hakind : a.kind = .array) (has : elements a.raw = .ok as)
  (hnodes : List.Forall₂ (Alike .exact) as as')

include hekind hes hakind has hnodes

theorem atPosition_sameEnd {k k' : Keyed} {i : Nat} (hk : AlikeKeyed k k') (hi : k.key = .index i)
    (hn : Stripped es k.key k.node) :
    SameEnd (atPosition c path as k) (atPosition c path as' k') := by
  have hi' : k'.key = .index i := hk.1 ▸ hi
  rw [hi] at hn
  rcases rel_cases (rel_getElem? hnodes i) with ⟨hb, hb'⟩ | ⟨b, b', hb, hb', halike⟩
  · rw [atPosition_of_none hi hb, atPosition_of_none hi' hb']
    exact .matched
  · rw [atPosition_of_some hi hb, atPosition_of_some hi' hb']
    exact hc.sameEnd (.index hekind hes hn hakind has hb) hk.2 halike

theorem atIdentity_sameEnd {k k' : Keyed} {name value : String} (hk : AlikeKeyed k k')
    (hvalue : k.key = .identity name value) (hn : Stripped es k.key k.node) {texts : List String}
    (htexts : List.Forall₂ (IdentifiedBy name) as texts) :
    SameEnd (atIdentity c path es as texts k) (atIdentity c path es' as' texts k') := by
  rw [hvalue] at hn
  have hfirst : Option.Rel (Alike .exact) ((texts.idxOf? value).bind (as[·]?))
      ((texts.idxOf? value).bind (as'[·]?)) := by
    cases texts.idxOf? value with
    | none => exact .none
    | some i => exact rel_getElem? hnodes i
  unfold atIdentity
  rw [← hk.1, hvalue]
  dsimp only
  rcases rel_cases hfirst with ⟨hb, hb'⟩ | ⟨b, b', hb, hb', halike⟩
  · rw [hb, hb']
    exact .mismatch rfl
  · rw [hb, hb']
    have hwith := (first_eq_some_iff htexts).1 hb
    exact hc.sameEnd (.identity hekind hes hn hakind has hwith) hk.2 halike

theorem keyedLevel_sameEnd {pairs pairs' : List Keyed} (hpairs : keyed es = .ok pairs)
    (hkeyed : List.Forall₂ AlikeKeyed pairs pairs')
    (hscalar : ∀ {name}, (∃ k ∈ pairs, k.key.name? = some name) → ∀ n ∈ as, ScalarAt name n) :
    SameEnd (keyedLevel c path es as pairs) (keyedLevel c path es' as' pairs') := by
  rcases keys_cases hpairs with hindex | ⟨hne, name, hidentity⟩
  · have hindex' : ∀ k' ∈ pairs', ∃ i, k'.key = .index i := by
      intro k' hk'
      obtain ⟨k, hk, hkeys, -⟩ := exists_of_mem_right hkeyed k' hk'
      exact hkeys ▸ hindex k hk
    rw [keyedLevel_index _ _ hindex, keyedLevel_index _ _ hindex']
    apply SameEnd.first_map hkeyed
    intro k hk k' hkk'
    obtain ⟨i, hi⟩ := hindex k hk
    exact atPosition_sameEnd hc hekind hes hakind has hnodes hkk' hi
      (stripped_of_mem_keyed hpairs hk)
  · have hidentity' : ∀ k' ∈ pairs', ∃ value, k'.key = .identity name value := by
      intro k' hk'
      obtain ⟨k, hk, hkeys, -⟩ := exists_of_mem_right hkeyed k' hk'
      exact hkeys ▸ hidentity k hk
    have hne' : pairs' ≠ [] := by
      rw [← List.length_pos_iff, ← hkeyed.length_eq]
      exact List.length_pos_iff.2 hne
    have hname : ∃ k ∈ pairs, k.key.name? = some name := by
      obtain ⟨k, hk⟩ := List.exists_mem_of_ne_nil pairs hne
      obtain ⟨value, hvalue⟩ := hidentity k hk
      exact ⟨k, hk, by rw [hvalue]; rfl⟩
    rw [keyedLevel_identity _ _ hne hidentity, keyedLevel_identity _ _ hne' hidentity',
      ← identityTexts_eq hnodes (hscalar hname)]
    split
    · exact .failed rfl rfl
    next texts htexts =>
      apply SameEnd.first_map hkeyed
      intro k hk k' hkk'
      obtain ⟨value, hvalue⟩ := hidentity k hk
      exact atIdentity_sameEnd hc hekind hes hakind has hnodes hkk' hvalue
        (stripped_of_mem_keyed hpairs hk) (forall₂_identityTexts htexts)

theorem arrayLevel_sameEnd (helements : List.Forall₂ (Alike .exact) es es')
    (hscalar : ∀ {pairs name}, keyed es = .ok pairs → (∃ k ∈ pairs, k.key.name? = some name) →
      ∀ n ∈ as, ScalarAt name n) :
    SameEnd (arrayLevel c path es as) (arrayLevel c path es' as') := by
  have hprimitive : es.all Node.isPrimitive = es'.all Node.isPrimitive :=
    all_kind_eq helements Kind.isPrimitive
  have hobject : es.all (·.kind = .object) = es'.all (·.kind = .object) :=
    all_kind_eq helements (· = .object)
  unfold arrayLevel
  rw [← hprimitive, ← hobject]
  split
  next h => exact comparePrimitives_sameEnd helements hnodes h
  split
  · exact .failed rfl rfl
  next h =>
    have hkinds : ∀ n ∈ es, n.kind = .object := by simpa using h
    rcases (keyed_corresponds helements hkinds).cases with
      ⟨pairs, pairs', hpairs, hpairs', hkeyed⟩ | ⟨error, error', herror, herror', hvariant⟩
    · rw [hpairs, hpairs']
      exact keyedLevel_sameEnd hc hekind hes hakind has hnodes hpairs hkeyed (hscalar hpairs)
    · rw [herror, herror']
      exact .failed rfl hvariant

end

section

variable {s t : Spelling} {e' a' : Node} (he : Alike s e e') (ha : Alike t a a')

include he ha

theorem level_sameEnd_of_array (hscalar : ScalarIdentities e a) (hakind : a.kind = .array) :
    SameEnd (level c path config e a) (level c path config e' a') := by
  have hakind' : a'.kind = .array := ha.kind_eq ▸ hakind
  obtain ⟨as, as', has, has', hnodes⟩ := ha.exists_elements hakind
  by_cases hekind : e.kind = .array
  · have hekind' : e'.kind = .array := he.kind_eq ▸ hekind
    obtain ⟨es, es', hes, hes', helements⟩ := he.exists_elements hekind
    rw [level_of_arrays hekind hes hakind has, level_of_arrays hekind' hes' hakind' has']
    apply arrayLevel_sameEnd hc hekind hes hakind has hnodes helements
    intro pairs name hpairs hname
    exact hscalar.scalarAt .here hekind hes hpairs hname hakind has
  · simp only [level, hakind, hakind', has, has', ← he.kind_eq]
    split
    next hekind' => exact absurd hekind' hekind
    next =>
      rw [hnodes.length_eq]
      exact arrayLength_sameEnd he _
    next => exact .failed rfl rfl

theorem level_sameEnd_of_object (hakind : a.kind = .object) :
    SameEnd (level c path config e a) (level c path config e' a') := by
  have hakind' : a'.kind = .object := ha.kind_eq ▸ hakind
  obtain ⟨gs, gs', hgs, hgs', hfields⟩ := ha.exists_fields hakind
  obtain ⟨-, -, hachecked, -⟩ := ha.isSpelled.1.exists_fields hakind
  obtain ⟨-, -, hachecked', -⟩ := ha.isSpelled.2.exists_fields hakind'
  by_cases hekind : e.kind = .object
  · have hekind' : e'.kind = .object := he.kind_eq ▸ hekind
    obtain ⟨fs, fs', hfs, hfs', hexpected⟩ := he.exists_fields hekind
    obtain ⟨-, -, hechecked, -⟩ := he.isSpelled.1.exists_fields hekind
    obtain ⟨-, -, hechecked', -⟩ := he.isSpelled.2.exists_fields hekind'
    rw [level_of_objects hakind (bothFields_eq_ok hechecked hachecked hfs hgs),
      level_of_objects hakind' (bothFields_eq_ok hechecked' hachecked' hfs' hgs')]
    apply SameEnd.first_map (Fields.forall₂_toList hexpected)
    intro f hf f' hff'
    exact atField_sameEnd hc hekind hfs hakind hgs hfields hf hff'
  · have hekind' : e'.kind ≠ .object := he.kind_eq ▸ hekind
    obtain ⟨cause, place, herror⟩ := he.isSpelled.1.checkObject_of_kind_ne hekind
    obtain ⟨cause', place', herror'⟩ := he.isSpelled.2.checkObject_of_kind_ne hekind'
    simp only [level, hakind, hakind', bothFields, hachecked, hachecked', herror, herror', bind,
      Except.bind]
    exact .failed rfl rfl

theorem level_sameEnd (hscalar : ScalarIdentities e a) :
    SameEnd (level c path config e a) (level c path config e' a') := by
  cases hakind : a.kind with
  | absent => exact absurd hakind ha.isSpelled.1.kind_ne_absent
  | string =>
    simp only [level, hakind, ← ha.kind_eq]
    exact string_sameEnd he ha
  | number =>
    simp only [level, hakind, ← ha.kind_eq]
    exact number_sameEnd he ha hakind
  | boolean =>
    simp only [level, hakind, ← ha.kind_eq]
    exact boolean_sameEnd he ha hakind
  | null =>
    simp only [level, hakind, ← ha.kind_eq]
    exact null_sameEnd he
  | array => exact level_sameEnd_of_array hc he ha hscalar hakind
  | object => exact level_sameEnd_of_object hc he ha hakind

end

end

theorem nodes_sameEnd {config : Config} {path : String} {s t : Spelling} {e e' a a' : Node}
    (he : Alike s e e') (ha : Alike t a a') (hscalar : ScalarIdentities e a) :
    SameEnd (nodes config path e a).value (nodes config path e' a').value := by
  -- by induction on the length of the actual node, which every step makes shorter
  induction hlen : a.raw.length using Nat.strongRecOn generalizing path s t e e' a a' with
  | ind k ih =>
    rw [value_nodes, value_nodes]
    refine level_sameEnd ⟨fun hstep he₁ ha₁ => ?_⟩ he ha hscalar
    exact ih _ (hlen ▸ hstep.length_lt) he₁ ha₁ (hscalar.step hstep) rfl

/-- Of documents in two formattings, every comparison ends alike. -/
theorem documents_sameEnd (config : Config) {expected expected' actual actual' : Bytes}
    (hexpected : Reformatted expected expected') (hactual : Reformatted actual actual')
    (hscalar : ∀ e a, root expected = .ok e → root actual = .ok a → ScalarIdentities e a) :
    SameEnd (documents config expected actual).value
      (documents config expected' actual').value := by
  obtain ⟨e, e', he, he', halike⟩ := hexpected.exists_root
  obtain ⟨a, a', ha, ha', halike'⟩ := hactual.exists_root
  have heroot := objectRoot_of_root he
  have heroot' := objectRoot_of_root he'
  rw [← halike.kind_eq] at heroot'
  by_cases hekind : e.kind = .object
  · rw [if_pos hekind] at heroot heroot'
    have haroot := objectRoot_of_root ha
    have haroot' := objectRoot_of_root ha'
    rw [← halike'.kind_eq] at haroot'
    by_cases hakind : a.kind = .object
    · rw [if_pos hakind] at haroot haroot'
      rw [documents_of_objectRoot heroot haroot, documents_of_objectRoot heroot' haroot']
      exact nodes_sameEnd halike halike' (hscalar e a he ha)
    · rw [if_neg hakind] at haroot haroot'
      rw [value_documents_of_actual heroot haroot, value_documents_of_actual heroot' haroot']
      exact .failed rfl rfl
  · rw [if_neg hekind] at heroot heroot'
    rw [value_documents_of_expected heroot, value_documents_of_expected heroot']
    exact .failed rfl rfl

def identitySample : Bytes := Bytes.ofString r#"{"a":"x","b":[{"_gst_id":"k=0"}]}"#

/-- The members the other way round, with blanks and with an escape in a key. -/
def identitySample' : Bytes :=
  Bytes.ofString "\x7b \"b\":[\x7b\"_gst_id\":\"k=0\"\x7d ],\"\\u0061\":\"x\"\x7d"

def actualSample : Bytes := Bytes.ofString r#"{"a":"y","b":[{"k":0}]}"#

def actualSample' : Bytes := Bytes.ofString "\x7b\"b\":[\x7b\"k\":0\x7d],\"a\":\"\\u0079\"\x7d"

theorem scalarIdentities_identitySample {e a : Node} (he : root identitySample = .ok e)
    (ha : root actualSample = .ok a) : ScalarIdentities e a := by
  have heroot : root identitySample = .ok ⟨.object, identitySample⟩ := by cbv
  have haroot : root actualSample = .ok ⟨.object, actualSample⟩ := by cbv
  have hfs : fields identitySample =
      .ok ((Fields.empty.insert "a" ⟨.string, Bytes.ofString "\"x\""⟩).insert "b"
        ⟨.array, Bytes.ofString r#"[{"_gst_id":"k=0"}]"#⟩) := by cbv
  have hgs : fields actualSample =
      .ok ((Fields.empty.insert "a" ⟨.string, Bytes.ofString "\"y\""⟩).insert "b"
        ⟨.array, Bytes.ofString r#"[{"k":0}]"#⟩) := by cbv
  have hes : elements (Bytes.ofString r#"[{"_gst_id":"k=0"}]"#) =
      .ok [⟨.object, Bytes.ofString r#"{"_gst_id":"k=0"}"#⟩] := by cbv
  have has : elements (Bytes.ofString r#"[{"k":0}]"#) =
      .ok [⟨.object, Bytes.ofString r#"{"k":0}"#⟩] := by cbv
  have hpairs : keyed [⟨.object, Bytes.ofString r#"{"_gst_id":"k=0"}"#⟩] =
      .ok [⟨.identity "k" "0", Bytes.ofString r#"{}"#⟩] := by cbv
  have hempty : fields (Bytes.ofString r#"{}"#) = .ok Fields.empty := by cbv
  have hnone (name : String) (n : Node) : Fields.empty.get? name ≠ some n := by
    simp [Fields.get?_empty]
  have hk : fields (Bytes.ofString r#"{"k":0}"#) =
      .ok (Fields.empty.insert "k" ⟨.number, Bytes.ofString "0"⟩) := by cbv
  obtain rfl := Except.ok.inj (heroot.symm.trans he)
  obtain rfl := Except.ok.inj (haroot.symm.trans ha)
  refine .of_object rfl hfs hgs fun name n b hn hb => ?_
  rw [Fields.get?_insert] at hn hb
  split at hn
  next hname =>
    rw [if_pos hname] at hb
    obtain rfl := Option.some.inj hn
    obtain rfl := Option.some.inj hb
    refine .of_array rfl hes has hpairs ?_ ?_
    · simp only [List.mem_singleton, exists_eq_left, forall_eq, Key.name?]
      rintro name hname fs f hfs hf
      obtain rfl := Except.ok.inj (hk.symm.trans hfs)
      obtain rfl := Option.some.inj hname
      obtain rfl := Option.some.inj hf
      rfl
    · simp only [List.mem_singleton, forall_eq]
      exact .of_object rfl hempty hk fun _ _ _ h => absurd h (hnone _ _)
  next =>
    rw [Fields.get?_insert] at hn
    split at hn
    · obtain rfl := Option.some.inj hn
      exact .of_isPrimitive rfl
    · exact absurd hn (hnone _ _)

theorem documents_sameEnd_member :
    Reformatted identitySample identitySample' ∧ Reformatted actualSample actualSample' ∧
    (∀ e a, root identitySample = .ok e → root actualSample = .ok a → ScalarIdentities e a) ∧
    SameEnd (documents ⟨.zero⟩ identitySample actualSample).value
      (documents ⟨.zero⟩ identitySample' actualSample').value := by
  have hunit : Spells [byte '\\', byte 'u', byte '0', byte '0', byte '6', byte '1'] "a" :=
    ⟨by cbv, [.unit 0x61], _, .cons (.unit rfl) .nil, .unit rfl rfl .nil, by cbv⟩
  have hunit' : Spells [byte '\\', byte 'u', byte '0', byte '0', byte '7', byte '9'] "y" :=
    ⟨by cbv, [.unit 0x79], _, .cons (.unit rfl) .nil, .unit rfl rfl .nil, by cbv⟩
  have hblank : AllBlank [byte ' '] := by
    intro b hb
    rw [List.mem_singleton.1 hb]
    rfl
  have hzero : Node.IsSpelled ⟨.number, [byte '0']⟩ :=
    .number (.unsigned (@IsUnsigned.parts _ [] [] .zero .none .none))
  have hexpected : Alike .free ⟨.object, identitySample⟩ ⟨.object, identitySample'⟩ := by
    unfold identitySample identitySample'
    exact .swapped (spells_escape "a") hunit (spells_escape "b") (spells_escape "b") (by decide)
      (.string (spells_escape "x") (spells_escape "x"))
      (.element hblank (.member (spells_escape "_gst_id")
        (.string (spells_escape "k=0") (spells_escape "k=0")))) hblank
  have hactual : Alike .free ⟨.object, actualSample⟩ ⟨.object, actualSample'⟩ := by
    unfold actualSample actualSample'
    exact .swapped (spells_escape "a") (spells_escape "a") (spells_escape "b") (spells_escape "b")
      (by decide) (.string (spells_escape "y") hunit')
      (.element allBlank_nil (.member (spells_escape "k") (.scalar hzero rfl))) allBlank_nil
  have hscalar : ∀ e a, root identitySample = .ok e → root actualSample = .ok a →
      ScalarIdentities e a := fun _ _ => scalarIdentities_identitySample
  exact ⟨hexpected.reformatted, hactual.reformatted, hscalar,
    documents_sameEnd ⟨.zero⟩ hexpected.reformatted hactual.reformatted hscalar⟩

end Compare

end DocMatch
