import Mathlib
import DocMatch.Proofs.Compare.Step

/-!
Where diagnostics point. The path of a diagnostic spells the steps to the pair of nodes it shows,
and on that pair alone the comparison ends as it did on the whole documents. Only what is missing on
the actual side has no pair of its own: a field, or an element with an identity. Main statement:
`documents_located`.
-/

namespace DocMatch.Compare

open Correlation

/-- What the diagnostic of the verdict `v` points at, below the pair of nodes at `path`. -/
inductive Located (config : Config) (path : String) (e a : Node) (v : Verdict) :
    Diagnostic → Prop where
  /-- A pair of nodes that the steps lead to. -/
  | pair {rest : String} {e' a' : Node} {d : Diagnostic} :
      Reaches e a rest e' a' → d.path = path ++ rest → Renders d.path e' a' d →
      (nodes config d.path e' a').value = v → Located config path e a v d
  /-- An expected field that is missing. -/
  | field {rest name : String} {e' a' n : Node} {fs gs : Fields} {d : Diagnostic} :
      Reaches e a rest e' a' →
      e'.kind = .object → Document.fields e'.raw = .ok fs → fs.get? name = some n →
      a'.kind = .object → Document.fields a'.raw = .ok gs → gs.get? name = none →
      d.path = path ++ (rest ++ ("." ++ name)) → d.expected = n.text →
      v = .mismatch d ∧ d.actual = "NotExist" ∨ (∃ error, v = .failed d error) ∧ d.actual = "" →
      Located config path e a v d
  /-- An expected identity that no actual element has. -/
  | identity {rest name value : String} {e' a' n : Node} {es as : List Node} {d : Diagnostic} :
      Reaches e a rest e' a' →
      e'.kind = .array → Document.elements e'.raw = .ok es →
      Stripped es (.identity name value) n →
      a'.kind = .array → Document.elements a'.raw = .ok as →
      (∀ m ∈ as, ¬ IdentifiedBy name m value) →
      d.path = path ++ (rest ++ ("." ++ name ++ "=" ++ value)) →
      d.expected = Node.describeAll es → d.actual = Node.describeAll as → v = .mismatch d →
      Located config path e a v d

variable {config : Config} {path : String} {e a : Node}

theorem Located.below {segment : String} {e₁ a₁ : Node} {v : Verdict} {d : Diagnostic}
    (hstep : Step e a segment e₁ a₁) (h : Located config (path ++ segment) e₁ a₁ v d) :
    Located config path e a v d := by
  cases h with
  | pair hreach hpath hd hv =>
    rw [String.append_assoc] at hpath
    exact .pair (.step hstep hreach) hpath hd hv
  | field hreach hekind hfs hn hakind hgs hnone hpath hexpected hv =>
    refine .field (.step hstep hreach) hekind hfs hn hakind hgs hnone ?_ hexpected hv
    simpa only [String.append_assoc] using hpath
  | identity hreach hekind hes hn hakind has hnone hpath hexpected hactual hv =>
    refine .identity (.step hstep hreach) hekind hes hn hakind has hnone ?_ hexpected hactual hv
    simpa only [String.append_assoc] using hpath

theorem Located.here {v : Verdict} {d : Diagnostic} (hd : Renders path e a d)
    (hv : (nodes config path e a).value = v) : Located config path e a v d := by
  have hpath := hd.path_eq
  refine .pair .here (by rw [hpath, String.append_empty]) ?_ ?_
  · exact hpath ▸ hd
  · rw [hpath, hv]

theorem missing_diagnostic {path : String} {n : Node} {d : Diagnostic}
    (h : (missing path n).diagnostic? = some d) :
    d.path = path ∧ d.expected = n.text ∧
      (missing path n = .mismatch d ∧ d.actual = "NotExist" ∨
        (∃ error, missing path n = .failed d error) ∧ d.actual = "") := by
  unfold missing at h ⊢
  split at h
  next error _ =>
    obtain rfl : byValue path n .absent = d := Option.some.inj h
    refine ⟨rfl, rfl, .inr ⟨⟨error, rfl⟩, ?_⟩⟩
    simp [byValue, Node.absent, Node.text, Utf8.lossy]
  next => simp [Verdict.diagnostic?, Verdict.outcome] at h
  next =>
    obtain rfl := Option.some.inj h
    exact ⟨rfl, rfl, .inl ⟨rfl, rfl⟩⟩

theorem located (he : e.IsValue) (ha : a.IsValue) {d : Diagnostic}
    (h : (nodes config path e a).value.diagnostic? = some d) :
    Located config path e a (nodes config path e a).value d := by
  -- by induction on the length of the actual node, which every step makes shorter
  induction hlen : a.raw.length using Nat.strongRecOn generalizing path e a with
  | ind k ih =>
    have horigin : Origin config _ path e a (nodes config path e a).value :=
      origin readable_isValue he ha
    generalize hv : (nodes config path e a).value = v at h horigin ⊢
    cases horigin with
    | matched => simp [Verdict.diagnostic?, Verdict.outcome] at h
    | mismatch hd =>
      obtain rfl := Option.some.inj h
      exact .here hd hv
    | failed hd _ =>
      obtain rfl := Option.some.inj h
      exact .here hd hv
    | missing hekind hfs hn hakind hgs hnone _ =>
      obtain ⟨hpath, hexpected, hmissing⟩ := missing_diagnostic h
      exact .field .here hekind hfs hn hakind hgs hnone (by rw [hpath, String.empty_append])
        hexpected hmissing
    | unidentified hekind hes hn hakind has hnone =>
      obtain rfl := Option.some.inj h
      exact .identity .here hekind hes hn hakind has hnone (by rw [String.empty_append]; rfl)
        rfl rfl rfl
    | @below e' a' segment hstep =>
      have hlt : a'.raw.length < k := hlen ▸ hstep.length_lt
      obtain ⟨he', ha'⟩ := hstep.readable readable_isValue he ha
      exact .below hstep (ih _ hlt he' ha' h rfl)

/-- The diagnostic of two documents that are objects points at what differs between them. -/
theorem documents_located (config : Config) {expected actual : Bytes} {e a : Node} {d : Diagnostic}
    (he : objectRoot expected = .ok e) (ha : objectRoot actual = .ok a)
    (h : (documents config expected actual).value.diagnostic? = some d) :
    Located config "" e a (documents config expected actual).value d := by
  rw [documents_of_objectRoot he ha] at h ⊢
  exact located (Document.root_sound (objectRoot_sound he).1).1
    (Document.root_sound (objectRoot_sound ha).1).1 h

theorem documents_located_nested :
    ∃ e a d,
      objectRoot (Bytes.ofString r#"{"a":{"b":null}}"#) = .ok e ∧
      objectRoot (Bytes.ofString r#"{"a":{"b":""}}"#) = .ok a ∧
      (documents ⟨.zero⟩ (Bytes.ofString r#"{"a":{"b":null}}"#)
        (Bytes.ofString r#"{"a":{"b":""}}"#)).value.diagnostic? = some d ∧
      d.path = ".a.b" ∧
      Located ⟨.zero⟩ "" e a (documents ⟨.zero⟩ (Bytes.ofString r#"{"a":{"b":null}}"#)
        (Bytes.ofString r#"{"a":{"b":""}}"#)).value d := by
  have he : objectRoot (Bytes.ofString r#"{"a":{"b":null}}"#) =
      .ok ⟨.object, Bytes.ofString r#"{"a":{"b":null}}"#⟩ := by
    cbv
  have ha : objectRoot (Bytes.ofString r#"{"a":{"b":""}}"#) =
      .ok ⟨.object, Bytes.ofString r#"{"a":{"b":""}}"#⟩ := by
    cbv
  have hv : (documents ⟨.zero⟩ (Bytes.ofString r#"{"a":{"b":null}}"#)
      (Bytes.ofString r#"{"a":{"b":""}}"#)).value =
        .failed ⟨".a.b", "Null", "String"⟩ (.typeMismatch .null .string) := by
    have hlength : (Bytes.ofString r#"{"a":{"b":""}}"#).length < 20 := by decide
    rw [documents_of_objectRoot he ha, value_nodes_eq_levels _ hlength]
    cbv
  have hd := congrArg Verdict.diagnostic? hv
  exact ⟨_, _, _, he, ha, hd, rfl, documents_located ⟨.zero⟩ he ha hd⟩

end DocMatch.Compare
