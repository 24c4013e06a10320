import Mathlib
import DocMatch.Proofs.Compare.Formatting
import DocMatch.Proofs.Compare.Prefix

/-!
Elements paired by identity. Every actual element has to have one. Then each expected element is
compared with the first actual element that has its identity, and the first declared that fails
decides, so the order of the expected elements has no part in whether all match, and the order of
the actual elements has none as long as no two of them have one identity. Main statement:
`identities_paired`.
-/

namespace DocMatch.Compare

open Correlation Verdict

/-- The first actual element with the identity that the element names matches what is left of it. -/
def Meets (config : Config) (path name : String) (as : List Node) (x : Node) : Prop :=
  ∃ value n a, Stripped [x] (.identity name value) n ∧ FirstWith name value as a ∧
    (nodes config (path ++ ("." ++ name ++ "=" ++ value)) n a).value = .matched

inductive Fails (config : Config) (path name : String) (es as : List Node) (x : Node) :
    Verdict → Prop where
  | missing {value : String} {n : Node} : Stripped [x] (.identity name value) n →
      (∀ m ∈ as, ¬ IdentifiedBy name m value) →
      Fails config path name es as x
        (.mismatch (listing (path ++ ("." ++ name ++ "=" ++ value)) es as))
  | differs {value : String} {n a : Node} : Stripped [x] (.identity name value) n →
      FirstWith name value as a →
      (nodes config (path ++ ("." ++ name ++ "=" ++ value)) n a).value ≠ .matched →
      Fails config path name es as x
        (nodes config (path ++ ("." ++ name ++ "=" ++ value)) n a).value

structure Judged (config : Config) (path name : String) (es as : List Node) (x : Node)
    (v : Verdict) : Prop where
  meets_iff : Meets config path name as x ↔ v = .matched
  fails : v ≠ .matched → Fails config path name es as x v

/-- The verdict on an array by the identities under a name. -/
inductive ByIdentity (config : Config) (path name : String) (es as : List Node) :
    Verdict → Prop where
  | unidentified {before after : List Node} {m : Node} {e : MatchError} :
      as = before ++ m :: after → (∀ b ∈ before, ∃ value, IdentifiedBy name b value) →
      Unidentified name m before.length e →
      ByIdentity config path name es as (.failed (listing path es as) e)
  | matched : (∀ m ∈ as, ∃ value, IdentifiedBy name m value) →
      (∀ x ∈ es, Meets config path name as x) → ByIdentity config path name es as .matched
  | first {before after : List Node} {x : Node} {v : Verdict} :
      (∀ m ∈ as, ∃ value, IdentifiedBy name m value) → es = before ++ x :: after →
      (∀ y ∈ before, Meets config path name as y) → Fails config path name es as x v →
      ByIdentity config path name es as v

section

variable {name value : String} {as : List Node} {texts : List String}
  (htexts : List.Forall₂ (IdentifiedBy name) as texts) {path : String} {es : List Node} {k : Keyed}
  (hk : k.key = .identity name value)

include htexts hk

theorem judged {config : Config} {x : Node} (hx : KeyedAs x k) :
    Judged config path name es as x
      (atIdentity (fun p e a => (nodes config p e a).value) path es as texts k) := by
  have hvalue {value' : String} {n : Node} (hn : Stripped [x] (.identity name value') n) :
      value = value' ∧ k.node = n := by
    obtain ⟨hkey, hnode⟩ := hx.eq_of_stripped hn
    exact ⟨(Key.identity.inj (hk.symm.trans hkey)).2, hnode⟩
  rcases exists_firstWith_or htexts value with ⟨a, ha⟩ | hno
  · rw [atIdentity_of_firstWith htexts hk ha]
    refine ⟨⟨?_, fun hmatched => ⟨value, k.node, a, hk ▸ hx.stripped, ha, hmatched⟩⟩,
      .differs (hk ▸ hx.stripped) ha⟩
    rintro ⟨value', n, a', hn, ha', hmatched⟩
    obtain ⟨rfl, rfl⟩ := hvalue hn
    rwa [ha.unique ha']
  · rw [atIdentity_of_missing htexts hk hno]
    refine ⟨iff_of_false ?_ (by simp), fun _ => .missing (hk ▸ hx.stripped) hno⟩
    rintro ⟨value', n, a, hn, ha, -⟩
    obtain ⟨rfl, rfl⟩ := hvalue hn
    exact hno a ha.mem ha.identifiedBy

end

theorem identified_of_texts {name : String} {nodes : List Node} {texts : List String}
    (h : identityTexts name 0 nodes = .ok texts) :
    ∀ m ∈ nodes, ∃ value, IdentifiedBy name m value := by
  intro m hm
  obtain ⟨value, -, hvalue⟩ := exists_of_mem_left (forall₂_identityTexts h) m hm
  exact ⟨value, hvalue⟩

theorem exists_missingIdentity {name : String} {nodes : List Node} {e : MatchError}
    (h : identityTexts name 0 nodes = .error e)
    (hlack : ∀ m ∈ nodes, (∃ value, IdentifiedBy name m value) ∨ Lacks name m) :
    ∃ position, e = .missingIdentity name position := by
  obtain ⟨before, m, after, rfl, -, hm⟩ := exists_unidentified h
  rcases hlack m (by simp) with ⟨value, hvalue⟩ | hlacks
  · exact absurd hvalue hm.not_identifiedBy
  · exact ⟨_, hm.unique (.lacks hlacks)⟩

section

variable {config : Config} {path name : String} {es as : List Node}
  (hkeys : Correlates (some name) es)

include hkeys

theorem arrays_of_unidentified {e : MatchError} (h : identityTexts name 0 as = .error e) :
    (arrays config path es as).value = .failed (listing path es as) e := by
  obtain ⟨pairs, hpairs, hidentity⟩ := hkeys.exists_identities
  rw [value_arrays_of_keyed hkeys.nonempty hkeys.objects hpairs,
    keyedLevel_identity _ _ (ne_nil_of_keyed hkeys.nonempty hpairs) hidentity, h]

theorem arrays_of_identified :
    ∃ pairs, List.Forall₂ (fun x k => (∃ value, k.key = .identity name value) ∧ KeyedAs x k) es
        pairs ∧
      ∀ as texts, identityTexts name 0 as = .ok texts → (arrays config path es as).value =
        .first (pairs.map
          (atIdentity (fun p e a => (nodes config p e a).value) path es as texts)) := by
  obtain ⟨pairs, hpairs, hidentity⟩ := hkeys.exists_identities
  have hkeyed := (keyedAs_of_identities hpairs hidentity).1.flip
  refine ⟨pairs, ((List.forall₂_and_left _ _).2 ⟨hidentity, hkeyed⟩).flip, fun as texts h => ?_⟩
  rw [value_arrays_of_keyed hkeys.nonempty hkeys.objects hpairs,
    keyedLevel_identity _ _ (ne_nil_of_keyed hkeys.nonempty hpairs) hidentity, h]

theorem exists_judged {texts : List String} (h : identityTexts name 0 as = .ok texts) :
    ∃ verdicts, List.Forall₂ (Judged config path name es as) es verdicts ∧
      (arrays config path es as).value = .first verdicts := by
  obtain ⟨pairs, hkeyed, hvalue⟩ := arrays_of_identified hkeys
  refine ⟨_, List.forall₂_map_right_iff.2 (hkeyed.imp ?_), hvalue as texts h⟩
  rintro x k ⟨⟨value, hk⟩, hx⟩
  exact judged (forall₂_identityTexts h) hk hx

theorem byIdentity : ByIdentity config path name es as (arrays config path es as).value := by
  cases h : identityTexts name 0 as with
  | error e =>
    rw [arrays_of_unidentified hkeys h]
    obtain ⟨before, m, after, has, hbefore, hm⟩ := exists_unidentified h
    exact .unidentified has hbefore (by rwa [Nat.zero_add] at hm)
  | ok texts =>
    obtain ⟨verdicts, hjudged, hvalue⟩ := exists_judged hkeys h
    rw [hvalue]
    rcases first_cases verdicts with ⟨hfirst, hall⟩ | ⟨before, v, after, rfl, hbefore, hv, hfirst⟩
    · rw [hfirst]
      refine .matched (identified_of_texts h) fun x hx => ?_
      obtain ⟨v, hv, hxv⟩ := exists_of_mem_left hjudged x hx
      exact hxv.meets_iff.2 (hall v hv)
    · rw [hfirst]
      obtain ⟨front, x, back, hsplit, hfront, hx, -⟩ := exists_split_of_forall₂ hjudged
      refine .first (identified_of_texts h) hsplit (fun y hy => ?_) (hx.fails hv)
      obtain ⟨w, hw, hyw⟩ := exists_of_mem_left hfront y hy
      exact hyw.meets_iff.2 (hbefore w hw)

theorem arrays_matched_iff : (arrays config path es as).value = .matched ↔
    (∀ m ∈ as, ∃ value, IdentifiedBy name m value) ∧ ∀ x ∈ es, Meets config path name as x := by
  cases h : identityTexts name 0 as with
  | error e =>
    rw [arrays_of_unidentified hkeys h]
    refine iff_of_false (by simp) fun ⟨hall, _⟩ => ?_
    obtain ⟨texts, htexts⟩ := exists_identityTexts hall 0
    cases h.symm.trans htexts
  | ok texts =>
    obtain ⟨verdicts, hjudged, hvalue⟩ := exists_judged hkeys h
    rw [hvalue, first_eq_matched_iff, and_iff_right (identified_of_texts h)]
    constructor
    · intro hall x hx
      obtain ⟨v, hv, hxv⟩ := exists_of_mem_left hjudged x hx
      exact hxv.meets_iff.2 (hall v hv)
    · intro hall v hv
      obtain ⟨x, hx, hxv⟩ := exists_of_mem_right hjudged v hv
      exact hxv.meets_iff.1 (hall x hx)

/-- Where no two actual elements have one identity, the first that has one is the only one. -/
theorem sameEnd_of_perm {as' : List Node} (hperm : as'.Perm as) (hdistinct : Distinguished name as)
    (hlack : ∀ m ∈ as, (∃ value, IdentifiedBy name m value) ∨ Lacks name m) :
    SameEnd (arrays config path es as).value (arrays config path es as').value := by
  have hdistinct' := hdistinct.of_perm hperm
  cases h : identityTexts name 0 as with
  | error e =>
    cases h' : identityTexts name 0 as' with
    | error e' =>
      rw [arrays_of_unidentified hkeys h, arrays_of_unidentified hkeys h']
      obtain ⟨i, rfl⟩ := exists_missingIdentity h hlack
      obtain ⟨j, rfl⟩ := exists_missingIdentity h' fun m hm => hlack m (hperm.subset hm)
      exact .failed rfl rfl
    | ok texts' =>
      obtain ⟨texts, htexts⟩ := exists_identityTexts
        (fun m hm => identified_of_texts h' m (hperm.mem_iff.2 hm)) 0
      cases h.symm.trans htexts
  | ok texts =>
    obtain ⟨texts', h'⟩ := exists_identityTexts
      (fun m hm => identified_of_texts h m (hperm.mem_iff.1 hm)) 0
    obtain ⟨pairs, hkeyed, hvalue⟩ := arrays_of_identified hkeys
    rw [hvalue as texts h, hvalue as' texts' h']
    refine rel_first_map .matched (fun _ _ => SameEnd.matched_iff) fun k hk => ?_
    obtain ⟨x, -, ⟨value, hkey⟩, -⟩ := exists_of_mem_right hkeyed k hk
    have htexts := forall₂_identityTexts h
    have htexts' := forall₂_identityTexts h'
    rcases exists_firstWith_or htexts value with ⟨a, ha⟩ | hno
    · have ha' : FirstWith name value as' a := by
        rw [hdistinct'.firstWith_iff, hperm.mem_iff, ← hdistinct.firstWith_iff]
        exact ha
      rw [atIdentity_of_firstWith htexts hkey ha, atIdentity_of_firstWith htexts' hkey ha']
      exact .refl _
    · rw [atIdentity_of_missing htexts hkey hno,
        atIdentity_of_missing htexts' hkey fun m hm => hno m (hperm.subset hm)]
      exact .mismatch rfl

end

/-- Each identity is compared with the first actual element that has it, and the first declared that
fails decides, once all actual elements have identities. So whether all match does not depend on
the order of what is expected, nor how the comparison ends on that of distinct actual elements. -/
theorem identities_paired (config : Config) (path : String) {es : List Node} {name : String}
    (hkeys : Correlates (some name) es) (as : List Node) :
    ByIdentity config path name es as (arrays config path es as).value ∧
    ((arrays config path es as).value = .matched ↔
      (∀ m ∈ as, ∃ value, IdentifiedBy name m value) ∧
        ∀ x ∈ es, Meets config path name as x) ∧
    (∀ es', es'.Perm es →
      ((arrays config path es' as).value = .matched ↔
        (arrays config path es as).value = .matched)) ∧
    ∀ as', as'.Perm as → Distinguished name as →
      (∀ m ∈ as, (∃ value, IdentifiedBy name m value) ∨ Lacks name m) →
      SameEnd (arrays config path es as).value (arrays config path es as').value := by
  refine ⟨byIdentity hkeys, arrays_matched_iff hkeys, fun es' hperm => ?_, ?_⟩
  · rw [arrays_matched_iff hkeys, arrays_matched_iff (hkeys.of_perm hperm)]
    simp only [hperm.mem_iff]
  · exact fun as' hperm hdistinct hlack => sameEnd_of_perm hkeys hperm hdistinct hlack

theorem identities_paired_two :
    ∃ x y a b, Correlates (some "k") [x, y] ∧ Distinguished "k" [a, b] ∧
      ByIdentity ⟨.zero⟩ "" "k" [x, y] [a, b] (arrays ⟨.zero⟩ "" [x, y] [a, b]).value ∧
      ((arrays ⟨.zero⟩ "" [y, x] [a, b]).value = .matched ↔
        (arrays ⟨.zero⟩ "" [x, y] [a, b]).value = .matched) ∧
      SameEnd (arrays ⟨.zero⟩ "" [x, y] [a, b]).value (arrays ⟨.zero⟩ "" [x, y] [b, a]).value := by
  have hkeyed : keyed [⟨.object, Bytes.ofString r#"{"_gst_id":"k=b"}"#⟩,
      ⟨.object, Bytes.ofString r#"{"_gst_id":"k=1"}"#⟩] =
        .ok [⟨.identity "k" "b", Bytes.ofString r#"{}"#⟩,
          ⟨.identity "k" "1", Bytes.ofString r#"{}"#⟩] := by cbv
  have hkeys : Correlates (some "k") [⟨.object, Bytes.ofString r#"{"_gst_id":"k=b"}"#⟩,
      ⟨.object, Bytes.ofString r#"{"_gst_id":"k=1"}"#⟩] :=
    ⟨by simp, by simp, _, hkeyed, by simp [Key.name?]⟩
  have hone : identityText "k" 0 ⟨.object, Bytes.ofString r#"{"k":1}"#⟩ = .ok "1" := by cbv
  have hletter : identityText "k" 0 ⟨.object, Bytes.ofString r#"{"k":"b"}"#⟩ = .ok "b" := by cbv
  have ha := identityText_eq_ok_iff.1 hone
  have hb := identityText_eq_ok_iff.1 hletter
  have hdistinct : Distinguished "k" [⟨.object, Bytes.ofString r#"{"k":1}"#⟩,
      ⟨.object, Bytes.ofString r#"{"k":"b"}"#⟩] := by
    refine List.pairwise_pair.2 fun value hvalue hvalue' => ?_
    exact absurd ((ha.unique hvalue).trans (hvalue'.unique hb)) (by decide)
  obtain ⟨hdecide, -, hexpected, hactual⟩ := identities_paired ⟨.zero⟩ "" hkeys
    [⟨.object, Bytes.ofString r#"{"k":1}"#⟩, ⟨.object, Bytes.ofString r#"{"k":"b"}"#⟩]
  exact ⟨_, _, _, _, hkeys, hdistinct, hdecide, hexpected _ (.swap ..),
    hactual _ (.swap ..) hdistinct (by simpa using ⟨.inl ⟨_, ha⟩, .inl ⟨_, hb⟩⟩)⟩

end DocMatch.Compare
