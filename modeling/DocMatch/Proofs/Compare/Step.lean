import DocMatch.Proofs.Compare.Level
import DocMatch.Proofs.Raises

/-!
Steps down a pair of documents. From a pair of nodes a comparison goes on to pairs below it: fields
of one name, and elements that a position or an identity pairs. Main statements: `Step.length_lt`,
a step leads to an actual node with fewer bytes, and `origin`, the verdict on two nodes is raised
on them, or is about something missing below them, or is the verdict on a pair one step below.
-/

namespace DocMatch.Compare

open Correlation

/-- A step from a pair of nodes to a pair below, and what it adds to the path. -/
inductive Step : Node → Node → String → Node → Node → Prop where
  | field {e a e' a' : Node} {fs gs : Fields} {name : String} :
      e.kind = .object → Document.fields e.raw = .ok fs → fs.get? name = some e' →
      a.kind = .object → Document.fields a.raw = .ok gs → gs.get? name = some a' →
      Step e a ("." ++ name) e' a'
  | index {e a e' a' : Node} {es as : List Node} {i : Nat} :
      e.kind = .array → Document.elements e.raw = .ok es → Stripped es (.index i) e' →
      a.kind = .array → Document.elements a.raw = .ok as → as[i]? = some a' →
      Step e a ("[" ++ toString i ++ "]") e' a'
  | identity {e a e' a' : Node} {es as : List Node} {name value : String} :
      e.kind = .array → Document.elements e.raw = .ok es → Stripped es (.identity name value) e' →
      a.kind = .array → Document.elements a.raw = .ok as → FirstWith name value as a' →
      Step e a ("." ++ name ++ "=" ++ value) e' a'

theorem Step.length_lt {e a e' a' : Node} {segment : String} (h : Step e a segment e' a') :
    a'.raw.length < a.raw.length := by
  cases h with
  | field _ _ _ _ hgs ha' => exact (Document.fields_get? hgs ha').2
  | index _ _ _ _ has ha' => exact (Document.elements_mem has _ (List.mem_of_getElem? ha')).2
  | identity _ _ _ _ has ha' =>
    obtain ⟨i, hi, -⟩ := ha'
    exact (Document.elements_mem has _ (List.mem_of_getElem? hi)).2

theorem Step.readable {Q : Node → Prop} {P : MatchError → Prop} (hq : Readable Q P)
    {e a e' a' : Node} {segment : String} (h : Step e a segment e' a') (he : Q e) (ha : Q a) :
    Q e' ∧ Q a' := by
  cases h with
  | field _ hfs he' _ hgs ha' => exact ⟨hq.field he hfs he', hq.field ha hgs ha'⟩
  | index hekind hes hn hakind has ha' =>
    exact ⟨hq.of_stripped he hekind hes hn, hq.element ha hakind has (List.mem_of_getElem? ha')⟩
  | identity hekind hes hn hakind has ha' =>
    obtain ⟨i, hi, -⟩ := ha'
    exact ⟨hq.of_stripped he hekind hes hn, hq.element ha hakind has (List.mem_of_getElem? hi)⟩

/-- Steps one after another, their segments joined to a path. -/
inductive Reaches : Node → Node → String → Node → Node → Prop where
  | here {e a : Node} : Reaches e a "" e a
  | step {e a e₁ a₁ e₂ a₂ : Node} {segment path : String} :
      Step e a segment e₁ a₁ → Reaches e₁ a₁ path e₂ a₂ → Reaches e a (segment ++ path) e₂ a₂

/-- The diagnostic shows both nodes at the path: what they are written as, what kinds they are, or
all elements of either. -/
inductive Renders (path : String) (e a : Node) : Diagnostic → Prop where
  | value : Renders path e a (byValue path e a)
  | kind : Renders path e a (byKind path e a)
  | elements {es as : List Node} :
      e.kind = .array → Document.elements e.raw = .ok es →
      a.kind = .array → Document.elements a.raw = .ok as → Renders path e a (listing path es as)

theorem Renders.path_eq {path : String} {e a : Node} {d : Diagnostic} (h : Renders path e a d) :
    d.path = path := by
  cases h <;> rfl

/-- Where the verdict on a pair of nodes comes from: from the pair itself, from something missing
below it, or from a pair one step below. An error of the pair itself has the property `P`, unless
fields were wanted of an expected node that is no object. -/
inductive Origin (config : Config) (P : MatchError → Prop) (path : String) (e a : Node) :
    Verdict → Prop where
  | matched : Origin config P path e a .matched
  | mismatch {d : Diagnostic} : Renders path e a d → Origin config P path e a (.mismatch d)
  | failed {d : Diagnostic} {error : MatchError} :
      Renders path e a d →
      P error ∨ error.isUnreachable = false ∧ a.kind = .object ∧ e.kind ≠ .object →
      Origin config P path e a (.failed d error)
  | missing {fs gs : Fields} {name : String} {e' : Node} :
      e.kind = .object → Document.fields e.raw = .ok fs → fs.get? name = some e' →
      a.kind = .object → Document.fields a.raw = .ok gs → gs.get? name = none →
      Raises P (mayBeMissing e') →
      Origin config P path e a (missing (path ++ ("." ++ name)) e')
  | unidentified {es as : List Node} {e' : Node} {name value : String} :
      e.kind = .array → Document.elements e.raw = .ok es → Stripped es (.identity name value) e' →
      a.kind = .array → Document.elements a.raw = .ok as →
      (∀ n ∈ as, ¬ IdentifiedBy name n value) →
      Origin config P path e a
        (.mismatch (listing (path ++ ("." ++ name ++ "=" ++ value)) es as))
  | below {e' a' : Node} {segment : String} :
      Step e a segment e' a' →
      Origin config P path e a (nodes config (path ++ segment) e' a').value

section

variable {config : Config} {P : MatchError → Prop} {path : String} {e a : Node}

theorem Origin.ofTest {d : Diagnostic} (hd : Renders path e a d) {test : Except MatchError Bool}
    (htest : Raises P test) : Origin config P path e a (.ofTest d test) := by
  rcases test with error | _ | _
  · exact .failed hd (.inl (htest error rfl))
  · exact .mismatch hd
  · exact .matched

theorem Origin.first {vs : List Verdict} (h : ∀ v ∈ vs, Origin config P path e a v) :
    Origin config P path e a (.first vs) := by
  by_cases hfirst : Verdict.first vs = .matched
  · exact hfirst ▸ .matched
  · exact h _ (Verdict.first_mem hfirst)

theorem bothFields_fst {both : Fields × Fields} (h : bothFields e a = .ok both) :
    Document.fields e.raw = .ok both.1 := by
  simp only [bothFields, bind_eq_ok_iff] at h
  obtain ⟨-, -, -, -, fs, hfs, gs, -, hboth⟩ := h
  obtain rfl : (fs, gs) = both := Except.ok.inj hboth
  exact hfs

theorem raises_bothFields (hechecked : Raises P (Document.checkObject e.raw))
    (hachecked : Raises P (Document.checkObject a.raw))
    (hefields : Raises P (Document.fields e.raw)) (hafields : Raises P (Document.fields a.raw)) :
    Raises P (bothFields e a) := by
  refine hachecked.bind fun _ _ => ?_
  refine hechecked.bind fun _ _ => ?_
  refine hefields.bind fun fs _ => ?_
  exact hafields.bind fun gs _ => raises_ok _

variable {Q : Node → Prop} (hq : Readable Q P) (he : Q e) (ha : Q a)

include hq he ha

theorem origin_string (hkind : a.kind = .string) : Origin config P path e a (string path e a) := by
  unfold string
  split
  · exact .failed .kind (.inl (hq.judges rfl))
  next hekind =>
    refine .ofTest .value ((hq.text he (not_not.1 hekind)).bind fun s _ => ?_)
    refine (hq.of_judges (judges_stringTest s)).bind fun test _ => ?_
    exact (hq.text ha hkind).bind fun t _ => hq.of_judges (judges_holds t test)

theorem origin_number (hkind : a.kind = .number) :
    Origin config P path e a (number config path e a) := by
  unfold number
  dsimp only
  obtain ⟨x, hx⟩ := (hq.value ha).exists_numberValue hkind
  rw [hx]
  dsimp only
  split
  next hekind =>
    refine .ofTest .value ((hq.text he hekind).bind fun s _ => ?_)
    exact (hq.of_judges (judges_numberTest s)).bind fun test _ => raises_ok _
  next hekind =>
    have hvalue := (hq.value he).exists_numberValue hekind
    exact .ofTest .value ((raises_of_eq_ok hvalue).bind fun y _ => raises_ok _)
  next => exact .failed .kind (.inl (hq.judges rfl))

theorem origin_boolean (hkind : a.kind = .boolean) :
    Origin config P path e a (boolean path e a) := by
  unfold boolean
  split
  · exact .failed .kind (.inl (hq.judges rfl))
  next hekind =>
    have hvalue := (hq.value he).exists_booleanValue (not_not.1 hekind)
    refine .ofTest .value ((raises_of_eq_ok hvalue).bind fun b _ => ?_)
    exact (raises_of_eq_ok ((hq.value ha).exists_booleanValue hkind)).bind fun c _ => raises_ok _

omit ha in
theorem raises_emptiness (hekind : e.kind = .string) :
    Raises P (do Emptiness.ofExpected? (← e.stringValue) : Except MatchError _) :=
  (hq.text he hekind).bind fun s _ => hq.of_judges (judges_emptiness s)

omit ha in
theorem origin_null : Origin config P path e a (null path e a) := by
  unfold null
  split
  · exact .matched
  next hekind =>
    have hraises := raises_emptiness hq he hekind
    split
    next error herror => exact .failed .value (.inl (hraises error herror))
    next => exact .ofTest .value (raises_ok _)
    next => exact .failed .kind (.inl (hq.judges rfl))
  · exact .failed .kind (.inl (hq.judges rfl))

omit ha in
theorem raises_mayBeMissing : Raises P (mayBeMissing e) := by
  unfold mayBeMissing
  split
  · exact raises_ok _
  next hekind =>
    refine (hq.text he (not_not.1 hekind)).bind fun s _ => ?_
    exact (hq.of_judges (judges_emptiness s)).bind fun _ _ => raises_ok _

omit ha in
theorem origin_arrayLength (hekind : e.kind = .string) (count : Nat) :
    Origin config P path e a (arrayLength path e a count) := by
  refine .ofTest .value ((hq.text he hekind).bind fun s _ => ?_)
  refine (hq.of_judges (judges_emptiness s)).bind fun demand _ => ?_
  split
  · exact raises_ok _
  · exact raises_error (hq.judges rfl)

omit ha in
theorem origin_atField (hekind : e.kind = .object) {fs : Fields}
    (hfs : Document.fields e.raw = .ok fs) (hakind : a.kind = .object) {gs : Fields}
    (hgs : Document.fields a.raw = .ok gs) {f : Field} (hf : f ∈ fs.toList) :
    Origin config P path e a (atField (fun p e a => (nodes config p e a).value) path gs f) := by
  obtain ⟨name, e'⟩ := f
  have he' : fs.get? name = some e' := Fields.get?_of_mem hf
  unfold atField
  dsimp only
  rw [String.append_assoc]
  split
  next hnone =>
    exact .missing hekind hfs he' hakind hgs hnone (raises_mayBeMissing hq (hq.field he hfs he'))
  next a' ha' => exact .below (.field hekind hfs he' hakind hgs ha')

section

variable {es as : List Node} (hekind : e.kind = .array)
  (hes : Document.elements e.raw = .ok es) (hakind : a.kind = .array)
  (has : Document.elements a.raw = .ok as)

include hekind hes hakind has

omit hq he ha in
theorem origin_atPosition {k : Keyed} {i : Nat} (hk : k.key = .index i)
    (hn : Stripped es k.key k.node) :
    Origin config P path e a
      (atPosition (fun p e a => (nodes config p e a).value) path as k) := by
  rw [hk] at hn
  cases ha' : as[i]? with
  | none =>
    rw [atPosition_of_none hk ha']
    exact .matched
  | some a' =>
    rw [atPosition_of_some hk ha']
    exact .below (.index hekind hes hn hakind has ha')

omit hq he ha in
theorem origin_atIdentity {k : Keyed} {name value : String} (hk : k.key = .identity name value)
    (hn : Stripped es k.key k.node) {texts : List String}
    (htexts : List.Forall₂ (IdentifiedBy name) as texts) :
    Origin config P path e a
      (atIdentity (fun p e a => (nodes config p e a).value) path es as texts k) := by
  rw [hk] at hn
  rcases exists_firstWith_or htexts value with ⟨a', ha'⟩ | hno
  · rw [atIdentity_of_firstWith htexts hk ha']
    exact .below (.identity hekind hes hn hakind has ha')
  · rw [atIdentity_of_missing htexts hk hno]
    exact .unidentified hekind hes hn hakind has hno

omit he in
theorem origin_keyedLevel {pairs : List Keyed} (hpairs : keyed es = .ok pairs) :
    Origin config P path e a
      (keyedLevel (fun p e a => (nodes config p e a).value) path es as pairs) := by
  rcases keys_cases hpairs with hindex | ⟨hne, name, hidentity⟩
  · rw [keyedLevel_index _ _ hindex]
    refine .first fun v hv => ?_
    obtain ⟨k, hk, rfl⟩ := List.mem_map.1 hv
    obtain ⟨i, hi⟩ := hindex k hk
    exact origin_atPosition hekind hes hakind has hi (stripped_of_mem_keyed hpairs hk)
  · rw [keyedLevel_identity _ _ hne hidentity]
    have hraises := hq.raises_identityTexts name 0 fun n hn => hq.element ha hakind has hn
    split
    next error herror =>
      exact .failed (.elements hekind hes hakind has) (.inl (hraises error herror))
    next texts htexts =>
      refine .first fun v hv => ?_
      obtain ⟨k, hk, rfl⟩ := List.mem_map.1 hv
      obtain ⟨value, hvalue⟩ := hidentity k hk
      exact origin_atIdentity hekind hes hakind has hvalue (stripped_of_mem_keyed hpairs hk)
        (forall₂_identityTexts htexts)

theorem origin_arrayLevel :
    Origin config P path e a
      (arrayLevel (fun p e a => (nodes config p e a).value) path es as) := by
  have hlisting : Renders path e a (listing path es as) := .elements hekind hes hakind has
  unfold arrayLevel
  split
  · unfold comparePrimitives
    split
    · exact .failed hlisting (.inl (hq.judges rfl))
    · split
      · exact .matched
      · exact .mismatch hlisting
  split
  · exact .failed hlisting (.inl (hq.judges rfl))
  next hobjects =>
    have hkinds : ∀ n ∈ es, n.kind = .object := by simpa using hobjects
    have hraises := hq.raises_keyed fun n hn => ⟨hq.element he hekind hes hn, hkinds n hn⟩
    split
    next error herror => exact .failed hlisting (.inl (hraises error herror))
    next pairs hpairs => exact origin_keyedLevel hq ha hekind hes hakind has hpairs

end

theorem origin : Origin config P path e a (nodes config path e a).value := by
  rw [value_nodes, level]
  split
  next => exact .failed .kind (.inl (hq.judges rfl))
  next hakind => exact origin_string hq he ha hakind
  next hakind => exact origin_number hq he ha hakind
  next hakind => exact origin_boolean hq he ha hakind
  next => exact origin_null hq he
  next hakind =>
    have hraises := hq.elements ha hakind
    split
    next error herror => exact .failed .value (.inl (hraises error herror))
    next as has =>
      split
      next hekind =>
        have hraises := hq.elements he hekind
        split
        next error herror => exact .failed .value (.inl (hraises error herror))
        next es hes => exact origin_arrayLevel hq he ha hekind hes hakind has
      next hekind => exact origin_arrayLength hq he hekind _
      next => exact .failed .kind (.inl (hq.judges rfl))
  next hakind =>
    split
    next error herror =>
      refine .failed .value ?_
      by_cases hekind : e.kind = .object
      · exact .inl (raises_bothFields (hq.checked he hekind) (hq.checked ha hakind)
          (hq.fields he hekind) (hq.fields ha hakind) error herror)
      · refine .inr ⟨?_, hakind, hekind⟩
        exact raises_bothFields (Document.raises_checkObject _) (Document.raises_checkObject _)
          (Document.raises_fields _) (Document.raises_fields _) error herror
    next fs gs hboth =>
      have hfs := bothFields_fst hboth
      refine .first fun v hv => ?_
      obtain ⟨f, hf, rfl⟩ := List.mem_map.1 hv
      exact origin_atField hq he ((hq.value he).kind_of_fields hfs) hfs hakind
        (bothFields_snd hboth) hf

end

end DocMatch.Compare
