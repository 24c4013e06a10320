import Mathlib
import DocMatch.Proofs.Compare.Level
import DocMatch.Proofs.Correlation.Permutation
import DocMatch.Proofs.Raises

/-!
Only what the expected side names is compared. Fields that it does not name, positions that it
leaves out and identities that it does not ask for have no part in the verdict, at any depth. Main
statement: `nodes_agree`.
-/

namespace DocMatch

/-- The same verdict, but for what a mismatch shows of the actual side. -/
inductive Verdict.Agrees : Verdict → Verdict → Prop where
  | refl (v : Verdict) : Agrees v v
  | mismatch {d d' : Diagnostic} :
      d.path = d'.path → d.expected = d'.expected → Agrees (.mismatch d) (.mismatch d')

namespace Verdict.Agrees

theorem matched_iff {v v' : Verdict} (h : Agrees v v') : v = .matched ↔ v' = .matched := by
  cases h with
  | refl => exact Iff.rfl
  | mismatch => simp

theorem first_map {α : Type} {l : List α} {f g : α → Verdict}
    (h : ∀ x ∈ l, Agrees (f x) (g x)) : Agrees (.first (l.map f)) (.first (l.map g)) :=
  rel_first_map (.refl _) (fun _ _ => matched_iff) h

end Verdict.Agrees

namespace Correlation

/-- Objects with valid keys: all of them positions, or all identities under the name given. -/
structure Correlates (name? : Option String) (elements : List Node) : Prop where
  nonempty : elements ≠ []
  objects : ∀ n ∈ elements, n.kind = .object
  keyed : ∃ pairs, keyed elements = .ok pairs ∧ ∀ k ∈ pairs, k.key.name? = name?

theorem Correlates.exists_positions {es : List Node} (h : Correlates none es) :
    ∃ pairs, Correlation.keyed es = .ok pairs ∧ ∀ k ∈ pairs, ∃ i, k.key = .index i := by
  obtain ⟨pairs, hpairs, hname⟩ := h.keyed
  exact ⟨pairs, hpairs, fun k hk => Key.exists_index_of_name? (hname k hk)⟩

theorem Correlates.exists_identities {name : String} {es : List Node}
    (h : Correlates (some name) es) :
    ∃ pairs, Correlation.keyed es = .ok pairs ∧
      ∀ k ∈ pairs, ∃ value, k.key = .identity name value := by
  obtain ⟨pairs, hpairs, hname⟩ := h.keyed
  exact ⟨pairs, hpairs, fun k hk => Key.exists_identity_of_name? (hname k hk)⟩

theorem Correlates.of_perm {name? : Option String} {es es' : List Node} (h : Correlates name? es)
    (hperm : es'.Perm es) : Correlates name? es' := by
  obtain ⟨pairs, hpairs, hname⟩ := h.keyed
  obtain ⟨pairs', hpairs', hsame⟩ := exists_keyed_of_perm hpairs hperm
  exact ⟨mt (fun hnil => List.perm_nil.1 (hnil ▸ hperm.symm)) h.nonempty,
    fun n hn => h.objects n (hperm.subset hn), pairs', hpairs',
    fun k hk => hname k (hsame.subset hk)⟩

def Carries (name : String) (n : Node) : Prop :=
  n.kind = .object ∧ ∃ fs f, Document.fields n.raw = .ok fs ∧ fs.get? name = some f

theorem Carries.exists_identifiedBy {name : String} {n : Node} (h : Carries name n)
    (hn : n.IsSpelled) : ∃ value, IdentifiedBy name n value := by
  obtain ⟨hkind, fs, f, hfs, hf⟩ := h
  obtain ⟨value, hvalue⟩ := (hn.spelled_of_get? hfs hf).exists_keyText
  exact ⟨value, hkind, fs, f, hfs, hf, hvalue⟩

end Correlation

namespace Compare

open Correlation Document Json Verdict

/-- Actual nodes that are the same wherever the expected node looks. -/
inductive SameFor : Node → Node → Node → Prop where
  | refl {e a : Node} : SameFor e a a
  | object {e a a' : Node} {fs gs gs' : Fields} :
      e.kind = .object → Document.fields e.raw = .ok fs →
      a.kind = .object → Document.fields a.raw = .ok gs →
      a'.kind = .object → Document.fields a'.raw = .ok gs' →
      (∀ name n, fs.get? name = some n → (gs.get? name = none ↔ gs'.get? name = none)) →
      (∀ name n b b', fs.get? name = some n → gs.get? name = some b → gs'.get? name = some b' →
        SameFor n b b') →
      SameFor e a a'
  | index {e a a' : Node} {es as as' : List Node} :
      e.kind = .array → Document.elements e.raw = .ok es → Correlates none es →
      a.kind = .array → Document.elements a.raw = .ok as →
      a'.kind = .array → Document.elements a'.raw = .ok as' →
      (∀ (i : Nat) n, Stripped es (.index i) n → (as[i]? = none ↔ as'[i]? = none)) →
      (∀ (i : Nat) n b b', Stripped es (.index i) n → as[i]? = some b → as'[i]? = some b' →
        SameFor n b b') →
      SameFor e a a'
  | identity {e a a' : Node} {es as as' : List Node} {name : String} :
      e.kind = .array → Document.elements e.raw = .ok es → Correlates (some name) es →
      a.kind = .array → Document.elements a.raw = .ok as → (∀ m ∈ as, Carries name m) →
      a'.kind = .array → Document.elements a'.raw = .ok as' → (∀ m ∈ as', Carries name m) →
      (∀ value n, Stripped es (.identity name value) n →
        ((∀ m ∈ as, ¬ IdentifiedBy name m value) ↔ ∀ m ∈ as', ¬ IdentifiedBy name m value)) →
      (∀ value n b b', Stripped es (.identity name value) n → FirstWith name value as b →
        FirstWith name value as' b' → SameFor n b b') →
      SameFor e a a'

section

variable {c : String → Node → Node → Verdict} {path : String}

theorem atField_agrees {gs gs' : Fields} {f : Field}
    (hnone : gs.get? f.1 = none ↔ gs'.get? f.1 = none)
    (hsome : ∀ b b' p, gs.get? f.1 = some b → gs'.get? f.1 = some b' →
      Agrees (c p f.2 b) (c p f.2 b')) :
    Agrees (atField c path gs f) (atField c path gs' f) := by
  unfold atField
  cases h : gs.get? f.1 with
  | none =>
    rw [hnone.1 h]
    exact .refl _
  | some b =>
    cases h' : gs'.get? f.1 with
    | none => simp [hnone.2 h'] at h
    | some b' => exact hsome b b' _ h h'

theorem atPosition_agrees {as as' : List Node} {k : Keyed} {i : Nat} (hk : k.key = .index i)
    (hnone : as[i]? = none ↔ as'[i]? = none)
    (hsome : ∀ b b' p, as[i]? = some b → as'[i]? = some b' →
      Agrees (c p k.node b) (c p k.node b')) :
    Agrees (atPosition c path as k) (atPosition c path as' k) := by
  cases h : as[i]? with
  | none =>
    rw [atPosition_of_none hk h, atPosition_of_none hk (hnone.1 h)]
    exact .refl _
  | some b =>
    cases h' : as'[i]? with
    | none => simp [hnone.2 h'] at h
    | some b' =>
      rw [atPosition_of_some hk h, atPosition_of_some hk h']
      exact hsome b b' _ h h'

theorem atIdentity_agrees {es as as' : List Node} {texts texts' : List String} {k : Keyed}
    {name value : String} (hk : k.key = .identity name value)
    (htexts : List.Forall₂ (IdentifiedBy name) as texts)
    (htexts' : List.Forall₂ (IdentifiedBy name) as' texts')
    (hnone : (∀ m ∈ as, ¬ IdentifiedBy name m value) ↔ ∀ m ∈ as', ¬ IdentifiedBy name m value)
    (hsome : ∀ b b' p, FirstWith name value as b → FirstWith name value as' b' →
      Agrees (c p k.node b) (c p k.node b')) :
    Agrees (atIdentity c path es as texts k) (atIdentity c path es as' texts' k) := by
  rcases exists_firstWith_or htexts value with ⟨b, hb⟩ | hno
  · rcases exists_firstWith_or htexts' value with ⟨b', hb'⟩ | hno'
    · rw [atIdentity_of_firstWith htexts hk hb, atIdentity_of_firstWith htexts' hk hb']
      exact hsome b b' _ hb hb'
    · exact absurd hb.identifiedBy (hnone.2 hno' b hb.mem)
  · rw [atIdentity_of_missing htexts hk hno, atIdentity_of_missing htexts' hk (hnone.1 hno)]
    exact .mismatch rfl rfl

end

section

variable {config : Config} {path : String} {e a a' : Node} (he : e.IsSpelled) (ha : a.IsSpelled)
  (ha' : a'.IsSpelled)

include he ha ha'

theorem agrees_of_fields {fs gs gs' : Fields} (hekind : e.kind = .object)
    (hfs : fields e.raw = .ok fs) (hakind : a.kind = .object) (hgs : fields a.raw = .ok gs)
    (hakind' : a'.kind = .object) (hgs' : fields a'.raw = .ok gs')
    (hnone : ∀ name n, fs.get? name = some n → (gs.get? name = none ↔ gs'.get? name = none))
    (hsome : ∀ name n b b' p, fs.get? name = some n → gs.get? name = some b →
      gs'.get? name = some b' → Agrees (nodes config p n b).value (nodes config p n b').value) :
    Agrees (nodes config path e a).value (nodes config path e a').value := by
  obtain ⟨_, -, hechecked, -⟩ := he.exists_fields hekind
  obtain ⟨_, -, hachecked, -⟩ := ha.exists_fields hakind
  obtain ⟨_, -, hachecked', -⟩ := ha'.exists_fields hakind'
  rw [value_nodes, level_of_objects hakind (bothFields_eq_ok hechecked hachecked hfs hgs)]
  rw [value_nodes, level_of_objects hakind' (bothFields_eq_ok hechecked hachecked' hfs hgs')]
  apply Agrees.first_map
  intro f hf
  have hn : fs.get? f.1 = some f.2 := Fields.get?_of_mem hf
  exact atField_agrees (hnone _ _ hn) fun b b' p => hsome _ _ b b' p hn

variable {es as as' : List Node} (hekind : e.kind = .array) (hes : elements e.raw = .ok es)
  (hakind : a.kind = .array) (has : elements a.raw = .ok as) (hakind' : a'.kind = .array)
  (has' : elements a'.raw = .ok as')

include hekind hes hakind has hakind' has'

omit he ha ha' in
theorem agrees_of_positions (hkeys : Correlates none es)
    (hnone : ∀ (i : Nat) n, Stripped es (.index i) n → (as[i]? = none ↔ as'[i]? = none))
    (hsome : ∀ (i : Nat) n b b' p, Stripped es (.index i) n → as[i]? = some b →
      as'[i]? = some b' → Agrees (nodes config p n b).value (nodes config p n b').value) :
    Agrees (nodes config path e a).value (nodes config path e a').value := by
  obtain ⟨pairs, hpairs, hindex⟩ := hkeys.exists_positions
  have hlevel {n : Node} {ns : List Node} (hkind : n.kind = .array)
      (hns : elements n.raw = .ok ns) : (nodes config path e n).value =
        .first (pairs.map (atPosition (fun p e a => (nodes config p e a).value) path ns)) := by
    rw [value_nodes, level_of_arrays hekind hes hkind hns,
      arrayLevel_of_keyed hkeys.nonempty hkeys.objects hpairs, keyedLevel_index _ _ hindex]
  rw [hlevel hakind has, hlevel hakind' has']
  apply Agrees.first_map
  intro k hk
  obtain ⟨i, hi⟩ := hindex k hk
  have hn := hi ▸ stripped_of_mem_keyed hpairs hk
  exact atPosition_agrees hi (hnone i _ hn) fun b b' p => hsome i _ b b' p hn

omit he in
theorem agrees_of_identities {name : String} (hkeys : Correlates (some name) es)
    (hcarry : ∀ m ∈ as, Carries name m) (hcarry' : ∀ m ∈ as', Carries name m)
    (hnone : ∀ value n, Stripped es (.identity name value) n →
      ((∀ m ∈ as, ¬ IdentifiedBy name m value) ↔ ∀ m ∈ as', ¬ IdentifiedBy name m value))
    (hsome : ∀ value n b b' p, Stripped es (.identity name value) n → FirstWith name value as b →
      FirstWith name value as' b' →
      Agrees (nodes config p n b).value (nodes config p n b').value) :
    Agrees (nodes config path e a).value (nodes config path e a').value := by
  obtain ⟨pairs, hpairs, hidentity⟩ := hkeys.exists_identities
  have hlevel {n : Node} {ns : List Node} (hn : n.IsSpelled) (hkind : n.kind = .array)
      (hns : elements n.raw = .ok ns) (hcarry : ∀ m ∈ ns, Carries name m) :
      ∃ texts, List.Forall₂ (IdentifiedBy name) ns texts ∧ (nodes config path e n).value =
        .first (pairs.map
          (atIdentity (fun p e a => (nodes config p e a).value) path es ns texts)) := by
    obtain ⟨texts, htexts⟩ := exists_identityTexts (fun m hm =>
      (hcarry m hm).exists_identifiedBy (hn.spelled_of_mem hkind hns hm)) 0
    refine ⟨texts, forall₂_identityTexts htexts, ?_⟩
    rw [value_nodes, level_of_arrays hekind hes hkind hns,
      arrayLevel_of_keyed hkeys.nonempty hkeys.objects hpairs,
      keyedLevel_identity _ _ (ne_nil_of_keyed hkeys.nonempty hpairs) hidentity, htexts]
  obtain ⟨texts, htexts, hv⟩ := hlevel ha hakind has hcarry
  obtain ⟨texts', htexts', hv'⟩ := hlevel ha' hakind' has' hcarry'
  rw [hv, hv']
  apply Agrees.first_map
  intro k hk
  obtain ⟨value, hvalue⟩ := hidentity k hk
  have hn := hvalue ▸ stripped_of_mem_keyed hpairs hk
  exact atIdentity_agrees hvalue htexts htexts' (hnone value _ hn) fun b b' p =>
    hsome value _ b b' p hn

end

theorem SameFor.agrees {config : Config} {e a a' : Node} (h : SameFor e a a') (he : e.IsSpelled)
    (ha : a.IsSpelled) (ha' : a'.IsSpelled) (path : String) :
    Agrees (nodes config path e a).value (nodes config path e a').value := by
  -- by induction on why the actual nodes are the same
  induction h generalizing path with
  | refl => exact .refl _
  | object hekind hfs hakind hgs hakind' hgs' hnone _ ih =>
    apply agrees_of_fields he ha ha' hekind hfs hakind hgs hakind' hgs' hnone
    intro name n b b' p hn hb hb'
    exact ih name n b b' hn hb hb' (he.spelled_of_get? hfs hn) (ha.spelled_of_get? hgs hb)
      (ha'.spelled_of_get? hgs' hb') p
  | index hekind hes hkeys hakind has hakind' has' hnone _ ih =>
    apply agrees_of_positions hekind hes hakind has hakind' has' hkeys hnone
    intro i n b b' p hn hb hb'
    exact ih i n b b' hn hb hb' (readable_isSpelled.of_stripped he hekind hes hn)
      (ha.spelled_of_mem hakind has (List.mem_of_getElem? hb))
      (ha'.spelled_of_mem hakind' has' (List.mem_of_getElem? hb')) p
  | identity hekind hes hkeys hakind has hcarry hakind' has' hcarry' hnone _ ih =>
    apply agrees_of_identities ha ha' hekind hes hakind has hakind' has' hkeys hcarry hcarry' hnone
    intro value n b b' p hn hb hb'
    exact ih value n b b' hn hb hb' (readable_isSpelled.of_stripped he hekind hes hn)
      (ha.spelled_of_mem hakind has hb.mem) (ha'.spelled_of_mem hakind' has' hb'.mem) p

/-- Actual nodes that are the same wherever the expected node looks get the same verdict. -/
theorem nodes_agree (config : Config) (path : String) {expected actual actual' : Bytes}
    (hexpected : IsPaired expected) (hactual : IsPaired actual) (hactual' : IsPaired actual')
    {e a a' : Node} (he : Part expected e) (ha : Part actual a) (ha' : Part actual' a')
    (h : SameFor e a a') :
    Agrees (nodes config path e a).value (nodes config path e a').value :=
  h.agrees (he.spelled hexpected) (ha.spelled hactual) (ha'.spelled hactual') path

theorem sameFor_position :
    SameFor ⟨.array, Bytes.ofString r#"[{"_gst_index":1}]"#⟩
      ⟨.array, Bytes.ofString r#"[0,{"b":1}]"#⟩ ⟨.array, Bytes.ofString r#"[true,{},2]"#⟩ := by
  have hes : elements (Bytes.ofString r#"[{"_gst_index":1}]"#) =
      .ok [⟨.object, Bytes.ofString r#"{"_gst_index":1}"#⟩] := by cbv
  have has : elements (Bytes.ofString r#"[0,{"b":1}]"#) =
      .ok [⟨.number, Bytes.ofString "0"⟩, ⟨.object, Bytes.ofString r#"{"b":1}"#⟩] := by cbv
  have has' : elements (Bytes.ofString r#"[true,{},2]"#) =
      .ok [⟨.boolean, Bytes.ofString "true"⟩, ⟨.object, Bytes.ofString r#"{}"#⟩,
        ⟨.number, Bytes.ofString "2"⟩] := by cbv
  have hkeyed : keyed [⟨.object, Bytes.ofString r#"{"_gst_index":1}"#⟩] =
      .ok [⟨.index 1, Bytes.ofString r#"{}"#⟩] := by cbv
  have hkeys : Correlates none [⟨.object, Bytes.ofString r#"{"_gst_index":1}"#⟩] :=
    ⟨by simp, by simp, _, hkeyed, by simp [Key.name?]⟩
  have hstripped (i : Nat) (n : Node)
      (hn : Stripped [⟨.object, Bytes.ofString r#"{"_gst_index":1}"#⟩] (.index i) n) :
      i = 1 ∧ n = ⟨.object, Bytes.ofString r#"{}"#⟩ := by
    obtain ⟨k, hk, hkey, rfl⟩ := (stripped_iff_of_keyed hkeyed).1 hn
    obtain rfl := List.mem_singleton.1 hk
    exact ⟨(Key.index.inj hkey).symm, rfl⟩
  refine .index rfl hes hkeys rfl has rfl has' (fun i n hn => ?_) fun i n b b' hn hb hb' => ?_
  · obtain ⟨rfl, -⟩ := hstripped i n hn
    simp
  · obtain ⟨rfl, rfl⟩ := hstripped i n hn
    obtain rfl := Option.some.inj hb
    obtain rfl := Option.some.inj hb'
    -- the element asks for no field, so it does not see the one that is there
    have hfields : fields (Bytes.ofString r#"{}"#) = .ok Fields.empty := by cbv
    have hfields' : fields (Bytes.ofString r#"{"b":1}"#) =
        .ok (Fields.empty.insert "b" ⟨.number, Bytes.ofString "1"⟩) := by cbv
    have hnone (name : String) (n : Node) : Fields.empty.get? name ≠ some n := by
      simp [Fields.get?_empty]
    exact .object rfl hfields rfl hfields' rfl hfields (fun _ _ h => absurd h (hnone _ _))
      fun _ _ _ _ h => absurd h (hnone _ _)

theorem nodes_agree_nested :
    ∃ e a a',
      IsPaired (Bytes.ofString r#"{"a":[{"_gst_index":1}],"c":null}"#) ∧
      IsPaired (Bytes.ofString r#"{"a":[0,{"b":1}]}"#) ∧
      IsPaired (Bytes.ofString r#"{"a":[true,{},2]}"#) ∧
      Part (Bytes.ofString r#"{"a":[{"_gst_index":1}],"c":null}"#) e ∧
      Part (Bytes.ofString r#"{"a":[0,{"b":1}]}"#) a ∧
      Part (Bytes.ofString r#"{"a":[true,{},2]}"#) a' ∧
      a ≠ a' ∧ SameFor e a a' ∧
      Agrees (nodes ⟨.zero⟩ "" e a).value (nodes ⟨.zero⟩ "" e a').value := by
  have he : IsPaired (Bytes.ofString r#"{"a":[{"_gst_index":1}],"c":null}"#) := by decide +kernel
  have ha : IsPaired (Bytes.ofString r#"{"a":[0,{"b":1}]}"#) := by decide +kernel
  have ha' : IsPaired (Bytes.ofString r#"{"a":[true,{},2]}"#) := by decide +kernel
  have hroot : root (Bytes.ofString r#"{"a":[{"_gst_index":1}],"c":null}"#) =
      .ok ⟨.object, Bytes.ofString r#"{"a":[{"_gst_index":1}],"c":null}"#⟩ := by cbv
  have hroot₁ : root (Bytes.ofString r#"{"a":[0,{"b":1}]}"#) =
      .ok ⟨.object, Bytes.ofString r#"{"a":[0,{"b":1}]}"#⟩ := by cbv
  have hroot₂ : root (Bytes.ofString r#"{"a":[true,{},2]}"#) =
      .ok ⟨.object, Bytes.ofString r#"{"a":[true,{},2]}"#⟩ := by cbv
  have hfs : fields (Bytes.ofString r#"{"a":[{"_gst_index":1}],"c":null}"#) =
      .ok ((Fields.empty.insert "a" ⟨.array, Bytes.ofString r#"[{"_gst_index":1}]"#⟩).insert "c"
        ⟨.null, Bytes.ofString "null"⟩) := by cbv
  have hgs : fields (Bytes.ofString r#"{"a":[0,{"b":1}]}"#) =
      .ok (Fields.empty.insert "a" ⟨.array, Bytes.ofString r#"[0,{"b":1}]"#⟩) := by cbv
  have hgs' : fields (Bytes.ofString r#"{"a":[true,{},2]}"#) =
      .ok (Fields.empty.insert "a" ⟨.array, Bytes.ofString r#"[true,{},2]"#⟩) := by cbv
  have hsame : SameFor ⟨.object, Bytes.ofString r#"{"a":[{"_gst_index":1}],"c":null}"#⟩
      ⟨.object, Bytes.ofString r#"{"a":[0,{"b":1}]}"#⟩
      ⟨.object, Bytes.ofString r#"{"a":[true,{},2]}"#⟩ := by
    refine .object rfl hfs rfl hgs rfl hgs' (fun name n _ => ?_) fun name n b b' hn hb hb' => ?_
    · simp only [Fields.get?_insert, Fields.get?_empty]
      split <;> simp
    · obtain rfl : name = "a" := by
        by_contra hne
        simp [Fields.get?_insert, Fields.get?_empty, hne] at hb
      obtain rfl := Option.some.inj hn
      obtain rfl := Option.some.inj hb
      obtain rfl := Option.some.inj hb'
      exact sameFor_position
  exact ⟨_, _, _, he, ha, ha', .root hroot, .root hroot₁, .root hroot₂, by decide, hsame,
    nodes_agree ⟨.zero⟩ "" he ha ha' (.root hroot) (.root hroot₁) (.root hroot₂) hsame⟩

end Compare

end DocMatch
