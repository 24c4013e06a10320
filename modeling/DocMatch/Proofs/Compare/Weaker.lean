import Mathlib
import DocMatch.Proofs.Compare.Step
import DocMatch.Proofs.Correlation.Restriction

/-!
Asking for less. An expected node that leaves out fields, or elements with keys, of another one at
any depth matches wherever the other one does. Main statement: `matched_of_weaker`.
-/

namespace DocMatch.Compare

open Correlation Document

/-- The first node asks for no more than the second: it is the same, or it has some of its fields,
each asking for no more, or some of the elements that keys pair, each asking for no more than the one
with its key. -/
inductive Weaker : Node → Node → Prop where
  | refl (e : Node) : Weaker e e
  | object {e' e : Node} {fs' fs : Fields} :
      e'.kind = .object → fields e'.raw = .ok fs' → e.kind = .object → fields e.raw = .ok fs →
      (∀ name n', fs'.get? name = some n' → ∃ n, fs.get? name = some n) →
      (∀ name n' n, fs'.get? name = some n' → fs.get? name = some n → Weaker n' n) →
      Weaker e' e
  | array {e' e : Node} {es' es : List Node} {pairs : List Keyed} :
      e'.kind = .array → elements e'.raw = .ok es' → e.kind = .array → elements e.raw = .ok es →
      (∀ n ∈ es, n.kind = .object) → keyed es = .ok pairs → Among es' es →
      (∀ key n' n, Stripped es' key n' → Stripped es key n → Weaker n' n) →
      Weaker e' e

theorem Weaker.eq_of_isPrimitive {e' e : Node} (h : Weaker e' e) (he : e.isPrimitive = true) :
    e' = e := by
  cases h with
  | refl => rfl
  | object _ _ hekind => simp [Node.isPrimitive, Kind.isPrimitive, hekind] at he
  | array _ _ hekind => simp [Node.isPrimitive, Kind.isPrimitive, hekind] at he

section

variable {c : String → Node → Node → Verdict} {path : String} {config : Config} {e e' a : Node}

theorem isPrimitive_of_missing (h : missing path e = .matched) : e.isPrimitive = true := by
  by_cases hkind : e.kind = .string
  · rw [Node.isPrimitive, hkind]
    rfl
  · simp [missing, mayBeMissing, hkind] at h

theorem bothFields_of_matched (hakind : a.kind = .object)
    (h : level c path config e a = .matched) : ∃ both, bothFields e a = .ok both := by
  cases hboth : bothFields e a with
  | ok both => exact ⟨both, rfl⟩
  | error error => simp [level, hakind, hboth] at h

theorem kind_of_not_isPrimitive (he : e.isPrimitive = false) :
    e.kind = .absent ∨ e.kind = .object ∨ e.kind = .array := by
  cases hekind : e.kind <;> simp [Node.isPrimitive, Kind.isPrimitive, hekind] at he ⊢

/-- An object or an array matches none but its like. What an actual object is compared with is not
asked for its kind, only for its fields. -/
theorem kinds_of_matched (he : e.isPrimitive = false) (h : level c path config e a = .matched) :
    a.kind = .object ∨ e.kind = .array ∧ a.kind = .array := by
  have hekind := kind_of_not_isPrimitive he
  cases hakind : a.kind with
  | object => exact .inl rfl
  | array =>
    cases has : elements a.raw with
    | error error => simp [level, hakind, has] at h
    | ok as =>
      rcases hekind with hekind | hekind | hekind
      · simp [level, hakind, has, hekind] at h
      · simp [level, hakind, has, hekind] at h
      · exact .inr ⟨hekind, rfl⟩
  | number =>
    cases hx : a.numberValue with
    | error error => simp [level, hakind, number, hx] at h
    | ok x => rcases hekind with hekind | hekind | hekind <;>
        simp [level, hakind, number, hx, hekind] at h
  | _ => rcases hekind with hekind | hekind | hekind <;>
      simp [level, hakind, wrongKind, string, boolean, null, hekind] at h

theorem kind_of_object (hekind : e.kind = .object) (h : level c path config e a = .matched) :
    a.kind = .object := by
  have he : e.isPrimitive = false := congrArg Kind.isPrimitive hekind
  rcases kinds_of_matched he h with hakind | ⟨harray, -⟩
  · exact hakind
  · simp [hekind] at harray

theorem kind_of_array (hekind : e.kind = .array) {es : List Node} (hes : elements e.raw = .ok es)
    (h : level c path config e a = .matched) : a.kind = .array := by
  have he : e.isPrimitive = false := congrArg Kind.isPrimitive hekind
  rcases kinds_of_matched he h with hakind | ⟨-, hakind⟩
  · -- An actual object would be matched for its fields, and an array has none.
    obtain ⟨both, hboth⟩ := bothFields_of_matched hakind h
    exact absurd (bothFields_fst hboth) (fields_ne_ok_of_elements hes _)
  · exact hakind

theorem atField_matched {gs : Fields} {name : String} {n n' : Node}
    (hmissing : ∀ p, missing p n = .matched → missing p n' = .matched)
    (hbelow : ∀ p b, c p n b = .matched → c p n' b = .matched)
    (h : atField c path gs (name, n) = .matched) : atField c path gs (name, n') = .matched := by
  simp only [atField] at h ⊢
  cases hb : gs.get? name with
  | none =>
    rw [hb] at h
    exact hmissing _ h
  | some b =>
    rw [hb] at h
    exact hbelow _ _ h

theorem level_matched_of_fields {fs' fs : Fields} (hekind : e.kind = .object)
    (hfs' : fields e'.raw = .ok fs') (hfs : fields e.raw = .ok fs)
    (hnames : ∀ name n', fs'.get? name = some n' → ∃ n, fs.get? name = some n)
    (hbelow : ∀ name n' n, fs'.get? name = some n' → fs.get? name = some n →
      (∀ p, missing p n = .matched → missing p n' = .matched) ∧
        ∀ p b, c p n b = .matched → c p n' b = .matched)
    (h : level c path config e a = .matched) : level c path config e' a = .matched := by
  have hakind := kind_of_object hekind h
  obtain ⟨both, hboth⟩ := bothFields_of_matched hakind h
  have hgs := bothFields_snd hboth
  have hchecked {n : Node} {ks : Fields} (hks : fields n.raw = .ok ks) :
      bothFields n a = .ok (ks, both.2) :=
    bothFields_eq_ok (checkObject_of_fields hks) (checkObject_of_fields hgs) hks hgs
  rw [level_of_objects hakind (hchecked hfs), Verdict.first_eq_matched_iff,
    List.forall_mem_map] at h
  rw [level_of_objects hakind (hchecked hfs'), Verdict.first_eq_matched_iff, List.forall_mem_map]
  intro f hf
  have hn' : fs'.get? f.1 = some f.2 := Fields.get?_of_mem hf
  obtain ⟨n, hn⟩ := hnames _ _ hn'
  obtain ⟨hmissing, hcompare⟩ := hbelow _ _ _ hn' hn
  exact atField_matched hmissing hcompare (h _ (Fields.mem_of_get? hn))

section

variable {es es' as : List Node}

theorem atPosition_matched {k k' : Keyed} (hkey : k.key = k'.key)
    (hbelow : ∀ p b, c p k.node b = .matched → c p k'.node b = .matched)
    (h : atPosition c path as k = .matched) : atPosition c path as k' = .matched := by
  unfold atPosition at h ⊢
  rw [← hkey]
  split at h
  · rfl
  · exact hbelow _ _ h

theorem atIdentity_matched {texts : List String} {k k' : Keyed} (hkey : k.key = k'.key)
    (hbelow : ∀ p b, c p k.node b = .matched → c p k'.node b = .matched)
    (h : atIdentity c path es as texts k = .matched) :
    atIdentity c path es' as texts k' = .matched := by
  unfold atIdentity at h ⊢
  rw [← hkey]
  split at h
  · rfl
  · split at h
    · simp at h
    · exact hbelow _ _ h

theorem keyedLevel_matched {pairs pairs' : List Keyed} (hpairs : keyed es = .ok pairs)
    (hne : pairs' ≠ [])
    (hbelow : ∀ k' ∈ pairs', ∃ k ∈ pairs, k.key = k'.key ∧
      ∀ p b, c p k.node b = .matched → c p k'.node b = .matched)
    (h : keyedLevel c path es as pairs = .matched) :
    keyedLevel c path es' as pairs' = .matched := by
  rcases keys_cases hpairs with hindex | ⟨hsome, name, hidentity⟩
  · have hindex' : ∀ k' ∈ pairs', ∃ i, k'.key = .index i := by
      intro k' hk'
      obtain ⟨k, hk, hkey, -⟩ := hbelow k' hk'
      exact hkey ▸ hindex k hk
    rw [keyedLevel_index _ _ hindex, Verdict.first_eq_matched_iff, List.forall_mem_map] at h
    rw [keyedLevel_index _ _ hindex', Verdict.first_eq_matched_iff, List.forall_mem_map]
    intro k' hk'
    obtain ⟨k, hk, hkey, hcompare⟩ := hbelow k' hk'
    exact atPosition_matched hkey hcompare (h k hk)
  · have hidentity' : ∀ k' ∈ pairs', ∃ value, k'.key = .identity name value := by
      intro k' hk'
      obtain ⟨k, hk, hkey, -⟩ := hbelow k' hk'
      exact hkey ▸ hidentity k hk
    rw [keyedLevel_identity _ _ hsome hidentity] at h
    rw [keyedLevel_identity _ _ hne hidentity']
    cases htexts : identityTexts name 0 as with
    | error error => simp [htexts] at h
    | ok texts =>
      simp only [htexts, Verdict.first_eq_matched_iff, List.forall_mem_map] at h ⊢
      intro k' hk'
      obtain ⟨k, hk, hkey, hcompare⟩ := hbelow k' hk'
      exact atIdentity_matched hkey hcompare (h k hk)

theorem level_matched_of_elements {pairs : List Keyed} (hekind' : e'.kind = .array)
    (hes' : elements e'.raw = .ok es') (hekind : e.kind = .array) (hes : elements e.raw = .ok es)
    (hobjects : ∀ n ∈ es, n.kind = .object) (hpairs : keyed es = .ok pairs) (hamong : Among es' es)
    (hbelow : ∀ key n' n, Stripped es' key n' → Stripped es key n →
      ∀ p b, c p n b = .matched → c p n' b = .matched)
    (h : level c path config e a = .matched) : level c path config e' a = .matched := by
  have hakind := kind_of_array hekind hes h
  have hne : es ≠ [] := by
    obtain ⟨x, hx⟩ := List.exists_mem_of_ne_nil _ hamong.nonempty
    obtain ⟨-, -, y, hy, -⟩ := hamong.shared x hx
    exact List.ne_nil_of_mem hy
  obtain ⟨pairs', hpairs', hshared⟩ := hamong.exists_keyed hpairs
  cases has : elements a.raw with
  | error error => simp [level, hakind, has] at h
  | ok as =>
    rw [level_of_arrays hekind hes hakind has, arrayLevel_of_keyed hne hobjects hpairs] at h
    rw [level_of_arrays hekind' hes' hakind has,
      arrayLevel_of_keyed hamong.nonempty hamong.objects hpairs']
    refine keyedLevel_matched hpairs (ne_nil_of_keyed hamong.nonempty hpairs') ?_ h
    intro k' hk'
    obtain ⟨k, hk, hkey⟩ := hshared k' hk'
    have hn := stripped_of_mem_keyed hpairs hk
    exact ⟨k, hk, hkey, hbelow _ _ _ (stripped_of_mem_keyed hpairs' hk') (hkey ▸ hn)⟩

end

end

theorem matched_of_weaker (config : Config) {e' e a : Node} (h : Weaker e' e) (path : String)
    (hmatched : (nodes config path e a).value = .matched) :
    (nodes config path e' a).value = .matched := by
  -- by induction on why the expected node asks for no more
  induction h generalizing path a with
  | refl => exact hmatched
  | object _ hfs' hekind hfs hnames hbelow ih =>
    rw [value_nodes] at hmatched ⊢
    refine level_matched_of_fields hekind hfs' hfs hnames (fun name n' n hn' hn => ?_) hmatched
    refine ⟨fun p hmissing => ?_, fun p b => ih name n' n hn' hn p⟩
    -- Only a text may be missing, and of a text nothing is left out.
    rw [(hbelow name n' n hn' hn).eq_of_isPrimitive (isPrimitive_of_missing hmissing)]
    exact hmissing
  | array hekind' hes' hekind hes hobjects hpairs hamong _ ih =>
    rw [value_nodes] at hmatched ⊢
    exact level_matched_of_elements hekind' hes' hekind hes hobjects hpairs hamong
      (fun key n' n hn' hn p b => ih key n' n hn' hn p) hmatched

/-- Of two fields one is left out, and so is one of the two elements in the other. -/
theorem matched_of_weaker_nested :
    Weaker ⟨.object, Bytes.ofString r#"{"l":[{"_gst_index":0}]}"#⟩
        ⟨.object, Bytes.ofString r#"{"l":[{"_gst_index":1},{"_gst_index":0}],"w":""}"#⟩ ∧
      (nodes ⟨.zero⟩ ""
        ⟨.object, Bytes.ofString r#"{"l":[{"_gst_index":1},{"_gst_index":0}],"w":""}"#⟩
        ⟨.object, Bytes.ofString r#"{"l":[{"v":0},{}],"w":""}"#⟩).value = .matched ∧
      (nodes ⟨.zero⟩ "" ⟨.object, Bytes.ofString r#"{"l":[{"_gst_index":0}]}"#⟩
        ⟨.object, Bytes.ofString r#"{"l":[{"v":0},{}],"w":""}"#⟩).value = .matched := by
  have hes' : elements (Bytes.ofString r#"[{"_gst_index":0}]"#) =
      .ok [⟨.object, Bytes.ofString r#"{"_gst_index":0}"#⟩] := by cbv
  have hes : elements (Bytes.ofString r#"[{"_gst_index":1},{"_gst_index":0}]"#) =
      .ok [⟨.object, Bytes.ofString r#"{"_gst_index":1}"#⟩,
        ⟨.object, Bytes.ofString r#"{"_gst_index":0}"#⟩] := by cbv
  have hpairs : keyed [⟨.object, Bytes.ofString r#"{"_gst_index":1}"#⟩,
      ⟨.object, Bytes.ofString r#"{"_gst_index":0}"#⟩] =
        .ok [⟨.index 0, Bytes.ofString r#"{}"#⟩, ⟨.index 1, Bytes.ofString r#"{}"#⟩] := by cbv
  have hkey : HasKey ⟨.object, Bytes.ofString r#"{"_gst_index":0}"#⟩ (.index 0) := ⟨0, by cbv⟩
  have hother : HasKey ⟨.object, Bytes.ofString r#"{"_gst_index":1}"#⟩ (.index 1) := ⟨0, by cbv⟩
  have hamong : Among [⟨.object, Bytes.ofString r#"{"_gst_index":0}"#⟩]
      [⟨.object, Bytes.ofString r#"{"_gst_index":1}"#⟩,
        ⟨.object, Bytes.ofString r#"{"_gst_index":0}"#⟩] :=
    ⟨by simp, by simp, List.pairwise_singleton .., by simpa using ⟨_, hkey, .inr hkey⟩⟩
  have helements : Weaker ⟨.array, Bytes.ofString r#"[{"_gst_index":0}]"#⟩
      ⟨.array, Bytes.ofString r#"[{"_gst_index":1},{"_gst_index":0}]"#⟩ := by
    refine .array rfl hes' rfl hes (by simp) hpairs hamong fun key n' n hn' hn => ?_
    obtain ⟨x', hx', hxkey', raw', hraw', rfl⟩ := hn'
    obtain ⟨x, hx, hxkey, raw, hraw, rfl⟩ := hn
    obtain rfl := List.mem_singleton.1 hx'
    obtain rfl := hxkey'.unique hkey
    rcases List.mem_pair.1 hx with rfl | rfl
    · cases hxkey.unique hother
    · obtain rfl := Except.ok.inj (hraw.symm.trans hraw')
      exact .refl _
  have hfs' : fields (Bytes.ofString r#"{"l":[{"_gst_index":0}]}"#) =
      .ok (Fields.empty.insert "l" ⟨.array, Bytes.ofString r#"[{"_gst_index":0}]"#⟩) := by cbv
  have hfs : fields (Bytes.ofString r#"{"l":[{"_gst_index":1},{"_gst_index":0}],"w":""}"#) =
      .ok ((Fields.empty.insert "w" ⟨.string, Bytes.ofString "\"\""⟩).insert "l"
        ⟨.array, Bytes.ofString r#"[{"_gst_index":1},{"_gst_index":0}]"#⟩) := by cbv
  have hweaker : Weaker ⟨.object, Bytes.ofString r#"{"l":[{"_gst_index":0}]}"#⟩
      ⟨.object, Bytes.ofString r#"{"l":[{"_gst_index":1},{"_gst_index":0}],"w":""}"#⟩ := by
    have hname {name : String} {n' : Node} (hn' : (Fields.empty.insert "l"
        ⟨.array, Bytes.ofString r#"[{"_gst_index":0}]"#⟩).get? name = some n') : name = "l" := by
      by_contra hne
      simp [Fields.get?_insert, Fields.get?_empty, hne] at hn'
    refine .object rfl hfs' rfl hfs (fun name n' hn' => ?_) fun name n' n hn' hn => ?_
    · obtain rfl := hname hn'
      exact ⟨_, rfl⟩
    · obtain rfl := hname hn'
      obtain rfl := Option.some.inj hn'
      obtain rfl := Option.some.inj hn
      exact helements
  have hmatched : (nodes ⟨.zero⟩ ""
      ⟨.object, Bytes.ofString r#"{"l":[{"_gst_index":1},{"_gst_index":0}],"w":""}"#⟩
      ⟨.object, Bytes.ofString r#"{"l":[{"v":0},{}],"w":""}"#⟩).value = .matched := by
    have hlength : (Bytes.ofString r#"{"l":[{"v":0},{}],"w":""}"#).length < 40 := by decide
    rw [value_nodes_eq_levels _ hlength]
    cbv
  exact ⟨hweaker, hmatched, matched_of_weaker ⟨.zero⟩ hweaker "" hmatched⟩

end DocMatch.Compare
