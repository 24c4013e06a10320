import Mathlib
import DocMatch.Proofs.Compare.Subset
import DocMatch.Proofs.Correlation.Restriction

/-!
The first failure decides. Fields are compared in the order of their keys, elements with positions
in the order of those, elements with identities as declared; a failure among the first of them is
the failure of the whole, and the whole matches where all such beginnings do. Main statement:
`beginnings_decide`.
-/

namespace DocMatch.Compare

open Correlation Document Json Verdict

/-- An object that holds the fields up to a key, and no others. -/
def HoldsUpTo (fs : Fields) (key : String) (n : Node) : Prop :=
  n.kind = .object ∧ fields n.raw = .ok (fs.upTo key)

structure KeysDecide (config : Config) (path : String) (e a : Node) (fs : Fields) : Prop where
  exists_node : ∀ key, ∃ n, HoldsUpTo fs key n
  failure : ∀ key n, HoldsUpTo fs key n → (nodes config path n a).value ≠ .matched →
    (nodes config path e a).value = (nodes config path n a).value
  matched_iff : (nodes config path e a).value = .matched ↔
    ∀ key n, HoldsUpTo fs key n → (nodes config path n a).value = .matched

structure PositionsDecide (config : Config) (path : String) (es as : List Node) : Prop where
  failure : ∀ limit, es.filter (namesUpTo limit) ≠ [] →
    (arrays config path (es.filter (namesUpTo limit)) as).value ≠ .matched →
    (arrays config path es as).value =
      (arrays config path (es.filter (namesUpTo limit)) as).value
  matched_iff : (arrays config path es as).value = .matched ↔
    ∀ limit, es.filter (namesUpTo limit) ≠ [] →
      (arrays config path (es.filter (namesUpTo limit)) as).value = .matched

/-- The same verdict on `es` as on `es'`, but that a diagnostic of the array itself lists the
elements it is about. -/
inductive Relisted (path : String) (es es' as : List Node) : Verdict → Verdict → Prop where
  | refl (v : Verdict) : Relisted path es es' as v v
  | mismatch (key : Key) :
      Relisted path es es' as (.mismatch (listing (path ++ key.segment) es as))
        (.mismatch (listing (path ++ key.segment) es' as))
  | failed (error : MatchError) :
      Relisted path es es' as (.failed (listing path es as) error)
        (.failed (listing path es' as) error)

structure IdentitiesDecide (config : Config) (path : String) (es as : List Node) : Prop where
  failure : ∀ count, 0 < count → (arrays config path (es.take count) as).value ≠ .matched →
    Relisted path (es.take count) es as (arrays config path (es.take count) as).value
      (arrays config path es as).value
  matched_iff : (arrays config path es as).value = .matched ↔
    ∀ count, 0 < count → (arrays config path (es.take count) as).value = .matched

theorem Relisted.matched_iff {path : String} {es es' as : List Node} {v v' : Verdict}
    (h : Relisted path es es' as v v') : v = .matched ↔ v' = .matched := by
  cases h <;> simp

section

variable {c : String → Node → Node → Verdict} {path : String} {es es' as : List Node}

theorem atIdentity_relisted (texts : List String) (k : Keyed) :
    Relisted path es es' as (atIdentity c path es as texts k)
      (atIdentity c path es' as texts k) := by
  unfold atIdentity
  split
  · exact .refl _
  split
  · exact .mismatch _
  · exact .refl _

theorem first_atIdentity_relisted (texts : List String) (pairs : List Keyed) :
    Relisted path es es' as (.first (pairs.map (atIdentity c path es as texts)))
      (.first (pairs.map (atIdentity c path es' as texts))) :=
  rel_first_map (.refl _) (fun _ _ => Relisted.matched_iff) fun k _ => atIdentity_relisted texts k

theorem keyedLevel_identity_prefix {name : String} {pairs pairs' : List Keyed} (hne : pairs ≠ [])
    (hfront : pairs <+: pairs') (h : ∀ k ∈ pairs', ∃ value, k.key = .identity name value)
    (hfailure : keyedLevel c path es as pairs ≠ .matched) :
    Relisted path es es' as (keyedLevel c path es as pairs) (keyedLevel c path es' as pairs') := by
  have hne' : pairs' ≠ [] := fun hnil => hne (List.prefix_nil.1 (hnil ▸ hfront))
  have hidentity : ∀ k ∈ pairs, ∃ value, k.key = .identity name value :=
    fun k hk => h k (hfront.subset hk)
  rw [keyedLevel_identity _ _ hne hidentity] at hfailure ⊢
  rw [keyedLevel_identity _ _ hne' h]
  cases htexts : identityTexts name 0 as with
  | error error => exact .failed error
  | ok texts =>
    rw [htexts] at hfailure
    have hrelisted : Relisted path es es' as (.first (pairs.map (atIdentity c path es as texts)))
        (.first (pairs.map (atIdentity c path es' as texts))) :=
      first_atIdentity_relisted texts pairs
    have hwhole := first_of_prefix (hfront.map (atIdentity c path es' as texts))
      (mt hrelisted.matched_iff.2 hfailure)
    dsimp only
    rw [hwhole]
    exact hrelisted

end

theorem matched_iff_of_failure {ι : Type} {p : ι → Prop} {v : Verdict} {w : ι → Verdict}
    (hfailure : ∀ i, p i → w i ≠ .matched → v ≠ .matched) (hwhole : ∃ i, p i ∧ w i = v) :
    v = .matched ↔ ∀ i, p i → w i = .matched := by
  constructor
  · intro hmatched i hi
    by_contra hne
    exact hfailure i hi hne hmatched
  · intro hall
    obtain ⟨i, hi, rfl⟩ := hwhole
    exact hall i hi

section

variable {config : Config} {path : String}

theorem keysDecide {e a : Node} (he : e.IsSpelled) (ha : a.IsSpelled) (hekind : e.kind = .object)
    (hakind : a.kind = .object) :
    ∃ fs, fields e.raw = .ok fs ∧ KeysDecide config path e a fs := by
  obtain ⟨fs, hfs, -, hspelled⟩ := he.exists_fields hekind
  obtain ⟨gs, hgs, hachecked, -⟩ := ha.exists_fields hakind
  have hlevel {n : Node} {ks : Fields} (hks : fields n.raw = .ok ks) :
      (nodes config path n a).value =
        .first (ks.toList.map (atField (fun p e a => (nodes config p e a).value) path gs)) := by
    rw [value_nodes, level_of_objects hakind
      (bothFields_eq_ok (checkObject_of_fields hks) hachecked hks hgs)]
  have hfailure : ∀ key n, HoldsUpTo fs key n → (nodes config path n a).value ≠ .matched →
      (nodes config path e a).value = (nodes config path n a).value := by
    intro key n hn hne
    rw [hlevel hn.2] at hne ⊢
    rw [hlevel hfs]
    exact first_of_prefix ((fs.upTo_prefix key).map _) hne
  have hexists : ∀ key, ∃ n, HoldsUpTo fs key n := by
    intro key
    refine ⟨⟨.object, ofFields (fs.upTo key)⟩, rfl, fields_ofFields fun f hf => ?_⟩
    exact (hspelled f ((fs.upTo_prefix key).subset hf)).isValue
  obtain ⟨last, hlast⟩ := fs.exists_upTo_eq
  have hwhole : HoldsUpTo fs last e := ⟨hekind, hlast.symm ▸ hfs⟩
  have hiff : (nodes config path e a).value = .matched ↔
      ∀ n, (∃ key, HoldsUpTo fs key n) → (nodes config path n a).value = .matched := by
    refine matched_iff_of_failure ?_ ⟨e, ⟨last, hwhole⟩, rfl⟩
    rintro n ⟨key, hn⟩ hne
    exact hfailure key n hn hne ▸ hne
  refine ⟨fs, hfs, hexists, hfailure, hiff.trans ⟨fun hall key n hn => hall n ⟨key, hn⟩, ?_⟩⟩
  rintro hall n ⟨key, hn⟩
  exact hall key n hn

theorem value_arrays_of_keyed {es : List Node} {pairs : List Keyed} (hne : es ≠ [])
    (hobjects : ∀ n ∈ es, n.kind = .object) (hpairs : keyed es = .ok pairs) (as : List Node) :
    (arrays config path es as).value =
      keyedLevel (fun p e a => (nodes config p e a).value) path es as pairs := by
  rw [arrays, value_compareArrays (nodes config), arrayLevel_of_keyed hne hobjects hpairs]

theorem positionsDecide {es : List Node} (hkeys : Correlates none es) (as : List Node) :
    PositionsDecide config path es as := by
  obtain ⟨pairs, hpairs, hindex⟩ := hkeys.exists_positions
  have hfailure : ∀ limit, es.filter (namesUpTo limit) ≠ [] →
      (arrays config path (es.filter (namesUpTo limit)) as).value ≠ .matched →
      (arrays config path es as).value =
        (arrays config path (es.filter (namesUpTo limit)) as).value := by
    intro limit hsome hne
    have hfront := keyed_prefix hpairs hindex limit
    rw [value_arrays_of_keyed hsome (fun n hn => hkeys.objects n (List.mem_filter.1 hn).1)
      (keyed_namesUpTo hpairs hindex limit),
      keyedLevel_index _ _ fun k hk => hindex k (hfront.subset hk)] at hne ⊢
    rw [value_arrays_of_keyed hkeys.nonempty hkeys.objects hpairs, keyedLevel_index _ _ hindex]
    exact first_of_prefix (hfront.map _) hne
  obtain ⟨last, hlast⟩ := exists_limit hpairs hkeys.nonempty hindex
  refine ⟨hfailure, matched_iff_of_failure
    (fun limit hsome hne => hfailure limit hsome hne ▸ hne) ⟨last, ?_, ?_⟩⟩
  · rw [hlast]
    exact hkeys.nonempty
  · rw [hlast]

theorem identitiesDecide {es : List Node} {name : String} (hkeys : Correlates (some name) es)
    (as : List Node) : IdentitiesDecide config path es as := by
  obtain ⟨pairs, hpairs, hidentity⟩ := hkeys.exists_identities
  have hfailure : ∀ count, 0 < count →
      (arrays config path (es.take count) as).value ≠ .matched →
      Relisted path (es.take count) es as (arrays config path (es.take count) as).value
        (arrays config path es as).value := by
    intro count hcount hne
    have htake {α : Type} {l : List α} (hl : l ≠ []) : l.take count ≠ [] := by
      simpa [List.take_eq_nil_iff, Nat.ne_of_gt hcount] using hl
    rw [value_arrays_of_keyed (htake hkeys.nonempty)
      (fun n hn => hkeys.objects n (List.mem_of_mem_take hn))
      (keyed_take hpairs hidentity count)] at hne ⊢
    rw [value_arrays_of_keyed hkeys.nonempty hkeys.objects hpairs]
    exact keyedLevel_identity_prefix (htake (ne_nil_of_keyed hkeys.nonempty hpairs))
      (List.take_prefix ..) hidentity hne
  refine ⟨hfailure, matched_iff_of_failure
    (fun count hcount hne => mt (hfailure count hcount hne).matched_iff.2 hne)
    ⟨es.length, List.length_pos_iff.2 hkeys.nonempty, ?_⟩⟩
  rw [List.take_length]

end

/-- What is compared first decides: the lowest keys of an object, the lowest positions of an array,
and the identities declared first. -/
theorem beginnings_decide (config : Config) (path : String) :
    (∀ expected actual e a, IsPaired expected → IsPaired actual → Part expected e →
      Part actual a → e.kind = .object → a.kind = .object →
      ∃ fs, fields e.raw = .ok fs ∧ KeysDecide config path e a fs) ∧
    (∀ es as, Correlates none es → PositionsDecide config path es as) ∧
    ∀ es as name, Correlates (some name) es → IdentitiesDecide config path es as := by
  refine ⟨?_, fun es as hkeys => positionsDecide hkeys as,
    fun es as name hkeys => identitiesDecide hkeys as⟩
  intro expected actual e a hexpected hactual he ha hekind hakind
  exact keysDecide (he.spelled hexpected) (ha.spelled hactual) hekind hakind

theorem beginnings_decide_two_fields :
    (∃ e a n fs,
      root (Bytes.ofString r#"{"b":0,"a":null}"#) = .ok e ∧
      root (Bytes.ofString r#"{"a":""}"#) = .ok a ∧
      fields e.raw = .ok fs ∧ HoldsUpTo fs "a" n ∧ ¬ HoldsUpTo fs "a" e ∧
      (nodes ⟨.zero⟩ "" n a).value =
        .failed ⟨".a", "Null", "String"⟩ (.typeMismatch .null .string) ∧
      (nodes ⟨.zero⟩ "" e a).value =
        .failed ⟨".a", "Null", "String"⟩ (.typeMismatch .null .string)) ∧
    (∃ x y, Correlates none [x, y] ∧ [x, y].filter (namesUpTo 0) = [y] ∧
      PositionsDecide ⟨.zero⟩ "" [x, y] []) ∧
    ∃ x y, Correlates (some "k") [x, y] ∧ IdentitiesDecide ⟨.zero⟩ "" [x, y] [] := by
  refine ⟨?_, ?_, ?_⟩
  · have he : IsPaired (Bytes.ofString r#"{"b":0,"a":null}"#) := by decide +kernel
    have ha : IsPaired (Bytes.ofString r#"{"a":""}"#) := by decide +kernel
    have heroot : root (Bytes.ofString r#"{"b":0,"a":null}"#) =
        .ok ⟨.object, Bytes.ofString r#"{"b":0,"a":null}"#⟩ := by cbv
    have haroot : root (Bytes.ofString r#"{"a":""}"#) =
        .ok ⟨.object, Bytes.ofString r#"{"a":""}"#⟩ := by cbv
    obtain ⟨fs, hfs, hdecide⟩ := (beginnings_decide ⟨.zero⟩ "").1 _ _ _ _ he ha (.root heroot)
      (.root haroot) rfl rfl
    have hfields : fields (Bytes.ofString r#"{"b":0,"a":null}"#) =
        .ok (.ofList [("a", ⟨.null, Bytes.ofString "null"⟩),
          ("b", ⟨.number, Bytes.ofString "0"⟩)]) := by cbv
    obtain rfl := Except.ok.inj (hfs.symm.trans hfields)
    have hn : HoldsUpTo (.ofList [("a", ⟨.null, Bytes.ofString "null"⟩),
        ("b", ⟨.number, Bytes.ofString "0"⟩)]) "a"
        ⟨.object, Bytes.ofString r#"{"a":null}"#⟩ := ⟨rfl, by cbv⟩
    have hv : (nodes ⟨.zero⟩ "" ⟨.object, Bytes.ofString r#"{"a":null}"#⟩
        ⟨.object, Bytes.ofString r#"{"a":""}"#⟩).value =
          .failed ⟨".a", "Null", "String"⟩ (.typeMismatch .null .string) := by
      have hlength : (Bytes.ofString r#"{"a":""}"#).length < 10 := by decide
      rw [value_nodes_eq_levels _ hlength]
      cbv
    refine ⟨_, _, _, _, heroot, haroot, hfs, hn, fun he => ?_, hv, ?_⟩
    · have hlength := congrArg (fun fs => fs.toList.length)
        (Except.ok.inj (hfs.symm.trans he.2))
      exact absurd hlength (by decide)
    · exact (hdecide.failure "a" _ hn (by rw [hv]; decide)).trans hv
  · have hkeyed : keyed [⟨.object, Bytes.ofString r#"{"_gst_index":1}"#⟩,
        ⟨.object, Bytes.ofString r#"{"_gst_index":0}"#⟩] =
          .ok [⟨.index 0, Bytes.ofString r#"{}"#⟩, ⟨.index 1, Bytes.ofString r#"{}"#⟩] := by cbv
    have hkeys : Correlates none [⟨.object, Bytes.ofString r#"{"_gst_index":1}"#⟩,
        ⟨.object, Bytes.ofString r#"{"_gst_index":0}"#⟩] :=
      ⟨by simp, by simp, _, hkeyed, by simp [Key.name?]⟩
    exact ⟨_, _, hkeys, by cbv, (beginnings_decide ⟨.zero⟩ "").2.1 _ [] hkeys⟩
  · have hkeyed : keyed [⟨.object, Bytes.ofString r#"{"_gst_id":"k=b"}"#⟩,
        ⟨.object, Bytes.ofString r#"{"_gst_id":"k=a"}"#⟩] =
          .ok [⟨.identity "k" "b", Bytes.ofString r#"{}"#⟩,
            ⟨.identity "k" "a", Bytes.ofString r#"{}"#⟩] := by cbv
    have hkeys : Correlates (some "k") [⟨.object, Bytes.ofString r#"{"_gst_id":"k=b"}"#⟩,
        ⟨.object, Bytes.ofString r#"{"_gst_id":"k=a"}"#⟩] :=
      ⟨by simp, by simp, _, hkeyed, by simp [Key.name?]⟩
    exact ⟨_, _, hkeys, (beginnings_decide ⟨.zero⟩ "").2.2 _ [] "k" hkeys⟩

end DocMatch.Compare
