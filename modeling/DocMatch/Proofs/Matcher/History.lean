import Mathlib
import DocMatch.Matcher.Session
import DocMatch.Proofs.Binary64

/-!
What a matcher has been through. What it holds after a series of steps follows from the steps: the
configuration in force is the one configured last, and the verdict kept is that of the last `run`,
under the configuration that was in force then. Main statements: `After.step` for one step and
`session_answers` for a session, in which every answer follows from the steps before it.
-/

namespace DocMatch

/-- Whether there is a diagnostic is whether there is no match, and the diagnostic is that of the
error if there is one. -/
structure MatchOutcome.Coherent (o : MatchOutcome) : Prop where
  matched_iff : o.matched = true ↔ o.diagnostic? = none
  of_failure : ∀ f, o.failure? = some f → o.matched = false ∧ o.diagnostic? = some f.diagnostic

theorem Verdict.coherent_outcome (v : Verdict) : v.outcome.Coherent where
  matched_iff := by cases v <;> simp [outcome]
  of_failure f h := by
    cases v with
    | matched => cases h
    | mismatch d => cases h
    | failed d e =>
      obtain rfl : ⟨d, e⟩ = f := Option.some.inj h
      exact ⟨rfl, rfl⟩

theorem Diagnostic.text_ne_empty (d : Diagnostic) : d.text ≠ "" := by
  intro h
  have hlist := congrArg String.toList h
  simp [text, String.toList_append] at hlist

theorem MatchOutcome.Coherent.failureMessage_eq_empty_iff {o : MatchOutcome} (h : o.Coherent) :
    o.failureMessage = "" ↔ o.matched = true := by
  rw [h.matched_iff, failureMessage]
  cases o.diagnostic? with
  | none => exact iff_of_true rfl rfl
  | some d => exact iff_of_false d.text_ne_empty (Option.some_ne_none d)

theorem MatchOutcome.negatedFailureMessage_eq (o : MatchOutcome) :
    o.negatedFailureMessage =
      if o.failureMessage = "" then "" else "Not " ++ o.failureMessage := by
  rw [negatedFailureMessage, failureMessage]
  cases o.diagnostic? with
  | none => rfl
  | some d => exact (if_neg d.text_ne_empty).symm

namespace Matcher

namespace Step

def config? : Step → Option Config
  | configure config => some config
  | _ => none

def Accepted (s : Step) : Prop := ∀ config, s = configure config → config.check = .ok ()

end Step

theorem check_eq_ok_iff {config : Config} : config.check = .ok () ↔ config.isValid = true := by
  unfold Config.check
  split <;> simp_all

def inForce (past : List Step) : Config := ((past.filterMap Step.config?).getLast?).getD .default

def verdictAfter (expected : Bytes) (past : List Step) (actual : Bytes) : Verdict :=
  (Compare.documents (inForce past) expected actual).value

/-- What is kept after the steps `past`. -/
inductive Latest (expected : Bytes) (past : List Step) : Option Verdict → Prop where
  | none : (∀ actual, Step.run actual ∉ past) → Latest expected past none
  | some {before after : List Step} {actual : Bytes} :
      past = before ++ .run actual :: after → (∀ actual', Step.run actual' ∉ after) →
      Latest expected past (some (verdictAfter expected before actual))

/-- What a matcher for `expected` holds after the steps `past`. -/
structure After (expected : Bytes) (past : List Step) (m : Matcher) : Prop where
  expected_eq : m.expected = expected
  config_eq : m.config = inForce past
  latest : Latest expected past m.last

/-- What is answered to a step after the steps `past`. -/
inductive Answered (expected : Bytes) (past : List Step) : Step → Answer → Prop where
  | ran {actual : Bytes} :
      (verdictAfter expected past actual).error? = none →
      Answered expected past (.run actual)
        (.ran (.ok (verdictAfter expected past actual).isMatch))
  | failed {actual : Bytes} {d : Diagnostic} {e : MatchError} :
      verdictAfter expected past actual = .failed d e →
      Answered expected past (.run actual)
        (.ran (.error ⟨e.category, some "match", some d.path, e.message⟩))
  | evaluated {actual : Bytes} :
      Answered expected past (.evaluate actual) (.verdict (verdictAfter expected past actual))
  | messages {last : Option Verdict} {failure negated : String} :
      Latest expected past last → (failure = "" ↔ ∀ v, last = some v → v.isMatch = true) →
      (∀ d, last.bind Verdict.diagnostic? = some d → failure = d.text) →
      negated = (if failure = "" then "" else "Not " ++ failure) →
      Answered expected past .messages (.messages failure negated)
  | last {last : Option Verdict} :
      Latest expected past last → Answered expected past .last (.last last)
  | expected : Answered expected past .expected (.expected expected)
  | tolerance : Answered expected past .tolerance (.tolerance (inForce past).tolerance)
  | configured {config : Config} : Answered expected past (.configure config) .configured

section

variable {expected : Bytes} {past : List Step} {m : Matcher}

theorem inForce_concat_of_ne {s : Step} (hs : ∀ config, s ≠ .configure config) :
    inForce (past ++ [s]) = inForce past := by
  have hnone : Step.config? s = none := by
    cases s with
    | configure config => exact absurd rfl (hs config)
    | _ => rfl
  simp [inForce, hnone]

theorem inForce_concat_configure (config : Config) :
    inForce (past ++ [.configure config]) = config := by
  simp [inForce, Step.config?]

theorem Latest.concat_of_ne {last : Option Verdict} (h : Latest expected past last) {s : Step}
    (hs : ∀ actual, s ≠ .run actual) : Latest expected (past ++ [s]) last := by
  have hsingle (actual : Bytes) : Step.run actual ∉ [s] := by
    simpa using (hs actual).symm
  cases h with
  | none hnone =>
    exact .none fun actual hmem => (List.mem_append.1 hmem).elim (hnone actual) (hsingle actual)
  | @some before after actual hpast hafter =>
    have hsplit : past ++ [s] = before ++ .run actual :: (after ++ [s]) := by
      rw [hpast]
      simp
    refine .some hsplit fun actual' hmem => ?_
    exact (List.mem_append.1 hmem).elim (hafter actual') (hsingle actual')

theorem latest_concat_run (actual : Bytes) :
    Latest expected (past ++ [.run actual]) (some (verdictAfter expected past actual)) := by
  have hsplit : past ++ [.run actual] = past ++ .run actual :: [] := rfl
  exact .some hsplit fun _ => List.not_mem_nil

theorem After.evaluate_value (h : After expected past m) (actual : Bytes) :
    (m.evaluate actual).value = verdictAfter expected past actual := by
  rw [evaluate, h.expected_eq, h.config_eq, verdictAfter]

theorem After.concat (h : After expected past m) {s : Step}
    (hconfig : ∀ config, s ≠ .configure config) (hrun : ∀ actual, s ≠ .run actual) :
    After expected (past ++ [s]) m :=
  ⟨h.expected_eq, h.config_eq.trans (inForce_concat_of_ne hconfig).symm, h.latest.concat_of_ne hrun⟩

theorem After.run (h : After expected past m) (actual : Bytes) :
    After expected (past ++ [.run actual]) (m.run actual).value.2 where
  expected_eq := h.expected_eq
  config_eq := h.config_eq.trans (inForce_concat_of_ne (by simp)).symm
  latest := by
    rw [last_run, h.evaluate_value]
    exact latest_concat_run actual

theorem After.answered_run (h : After expected past m) (actual : Bytes) :
    Answered expected past (.run actual) (.ran (m.run actual).value.1) := by
  have hanswer : (m.run actual).value.1 =
      answer (verdictAfter expected past actual).outcome := by
    rw [← h.evaluate_value]
    rfl
  rw [hanswer]
  cases hv : verdictAfter expected past actual with
  | matched =>
    have hran : Answered expected past (.run actual) _ := .ran (by rw [hv]; rfl)
    rwa [hv] at hran
  | mismatch d =>
    have hran : Answered expected past (.run actual) _ := .ran (by rw [hv]; rfl)
    rwa [hv] at hran
  | failed d e => exact .failed hv

theorem Answered.ofLatest {last : Option Verdict} (h : Latest expected past last) :
    Answered expected past .messages
      (.messages ((last.map Verdict.failureMessage).getD "")
        ((last.map Verdict.negatedFailureMessage).getD "")) := by
  cases last with
  | none => exact .messages h (by simp) (by simp) (by simp)
  | some v =>
    refine .messages h ?_ (fun d hd => ?_) v.outcome.negatedFailureMessage_eq
    · have hmessage : v.failureMessage = "" ↔ v.isMatch = true :=
        v.coherent_outcome.failureMessage_eq_empty_iff
      simpa using hmessage
    · have hd : v.outcome.diagnostic? = some d := hd
      simp [Verdict.failureMessage, MatchOutcome.failureMessage, hd]

theorem After.step (h : After expected past m) {s : Step} (hs : s.Accepted) :
    ∃ answer m', (m.step s).value = (answer, some m') ∧ Answered expected past s answer ∧
      After expected (past ++ [s]) m' := by
  cases s with
  | run actual => exact ⟨_, _, rfl, h.answered_run actual, h.run actual⟩
  | evaluate actual =>
    refine ⟨_, m, rfl, ?_, h.concat (by simp) (by simp)⟩
    rw [h.evaluate_value]
    exact .evaluated
  | messages => exact ⟨_, m, rfl, .ofLatest h.latest, h.concat (by simp) (by simp)⟩
  | last => exact ⟨_, m, rfl, .last h.latest, h.concat (by simp) (by simp)⟩
  | expected =>
    refine ⟨_, m, rfl, ?_, h.concat (by simp) (by simp)⟩
    rw [h.expected_eq]
    exact .expected
  | tolerance =>
    refine ⟨_, m, rfl, ?_, h.concat (by simp) (by simp)⟩
    rw [h.config_eq]
    exact .tolerance
  | configure config =>
    have hvalid := check_eq_ok_iff.1 (hs config rfl)
    refine ⟨.configured, { m with config, config_valid := hvalid }, ?_, .configured, ?_⟩
    · simp [Matcher.step, withConfig, hvalid, Traced.pure]
    · exact ⟨h.expected_eq, (inForce_concat_configure config).symm,
        h.latest.concat_of_ne (by simp)⟩

theorem step_refused (m : Matcher) {s : Step} (hs : ¬ s.Accepted) :
    ∃ config report, s = .configure config ∧ m.step s = ⟨[], (.refused report, none)⟩ := by
  obtain ⟨config, hne⟩ := Classical.not_forall.1 hs
  obtain ⟨rfl, hcheck⟩ := Classical.not_imp.1 hne
  have hvalid : ¬ config.isValid = true := mt check_eq_ok_iff.2 hcheck
  exact ⟨config, _, rfl, by simp only [Matcher.step, withConfig, hvalid]; rfl⟩

theorem value_steps_cons {s : Step} {rest : List Step} {answer : Answer} {m' : Matcher}
    (h : (m.step s).value = (answer, some m')) :
    (m.steps (s :: rest)).value =
      (answer :: (m'.steps rest).value.1, (m'.steps rest).value.2) := by
  rw [Matcher.steps, Traced.value_bind, h]
  rfl

theorem After.steps (h : After expected past m) {more : List Step}
    (hmore : ∀ s ∈ more, s.Accepted) :
    ∃ answers m', (m.steps more).value = (answers, some m') ∧ After expected (past ++ more) m' ∧
      answers.length = more.length ∧
      ∀ before s after, more = before ++ s :: after →
        ∃ answer, answers[before.length]? = some answer ∧
          Answered expected (past ++ before) s answer := by
  -- by induction on the steps still to come
  induction more generalizing past m with
  | nil => exact ⟨[], m, rfl, by simpa using h, rfl, by simp⟩
  | cons s more ih =>
    obtain ⟨hs, hmore⟩ := List.forall_mem_cons.1 hmore
    obtain ⟨answer, m₁, hvalue, hanswer, h₁⟩ := h.step hs
    obtain ⟨answers, m₂, hvalues, h₂, hlength, hanswers⟩ := ih h₁ hmore
    refine ⟨answer :: answers, m₂, ?_, by simpa using h₂, by simp [hlength],
      fun before t after hsplit => ?_⟩
    · rw [value_steps_cons hvalue, hvalues]
    · cases before with
      | nil =>
        obtain ⟨rfl, -⟩ := List.cons.inj hsplit
        exact ⟨answer, rfl, by simpa using hanswer⟩
      | cons s' before =>
        obtain ⟨rfl, hrest⟩ := List.cons.inj hsplit
        simpa using hanswers before t after hrest

end

/-- A matcher as it is made, for a document at hand or in a file. -/
def Built (m : Matcher) : Prop :=
  (∃ bindings document, (ofDocument bindings document).value = .ok m) ∨
    ∃ bindings path content, (ofFile bindings path content).value = .ok m

theorem after_of_ofDocument {bindings : Bindings} {document : Bytes} {m : Matcher}
    (h : (ofDocument bindings document).value = .ok m) : After m.expected [] m := by
  rw [ofDocument, Traced.map] at h
  cases hvalue : (Substitution.run bindings document).value with
  | error report => simp [hvalue, Except.map] at h
  | ok text =>
    obtain rfl : ofText text = m := by simpa [hvalue, Except.map] using h
    exact ⟨rfl, rfl, .none fun _ => List.not_mem_nil⟩

theorem Built.after {m : Matcher} (h : m.Built) : After m.expected [] m := by
  rcases h with ⟨bindings, document, h⟩ | ⟨bindings, path, content, h⟩
  · exact after_of_ofDocument h
  · cases content with
    | ok document => exact after_of_ofDocument h
    | error fault => simp [ofFile, Traced.pure] at h

theorem After.tolerance {expected : Bytes} {past : List Step} {m : Matcher}
    (h : After expected past m) :
    (inForce past).tolerance.isFinite = true ∧
      Binary64.zero.le (inForce past).tolerance = true := by
  have hvalid : (inForce past).isValid = true := h.config_eq ▸ m.config_valid
  exact ⟨Config.isFinite_tolerance hvalid, Config.zero_le_tolerance hvalid⟩

/-- Every answer of a session follows from the steps before it, and so does what is kept. -/
theorem session_answers {m : Matcher} (hm : m.Built) {steps : List Step}
    (hsteps : ∀ s ∈ steps, s.Accepted) :
    (∃ answers m', (m.steps steps).value = (answers, some m') ∧ After m.expected steps m' ∧
      answers.length = steps.length ∧
      ∀ past s rest, steps = past ++ s :: rest →
        ∃ answer, answers[past.length]? = some answer ∧ Answered m.expected past s answer) ∧
    (∀ past rest, steps = past ++ rest →
      (inForce past).tolerance.isFinite = true ∧
        Binary64.zero.le (inForce past).tolerance = true) ∧
    ∀ v : Verdict, v.outcome.Coherent := by
  refine ⟨?_, fun past rest hsplit => ?_, Verdict.coherent_outcome⟩
  · simpa using hm.after.steps hsteps
  · have hpast : ∀ s ∈ past, s.Accepted := fun s hs =>
      hsteps s (hsplit ▸ List.mem_append_left _ hs)
    obtain ⟨-, m', -, h, -⟩ := hm.after.steps hpast
    exact h.tolerance

/-- A number that lies within the tolerance only after that has been widened. -/
def wideningSteps : List Step :=
  [.run (Bytes.ofString "\x7b\"n\":3\x7d"), .last, .configure ⟨.ofNat 2⟩, .messages,
    .run (Bytes.ofString "\x7b\"n\":3\x7d")]

theorem session_answers_widening :
    ∃ m : Matcher, m.Built ∧ (∀ s ∈ wideningSteps, s.Accepted) ∧
      ∃ answers m', (m.steps wideningSteps).value = (answers, some m') ∧
        After m.expected wideningSteps m' ∧ answers.length = 5 ∧
        m'.config = ⟨.ofNat 2⟩ := by
  have hbuilt : (ofText (Bytes.ofString "\x7b\"n\":2\x7d")).Built := by
    have hreplaced : Substitution.replaceAll (fun _ => some "2")
        (Bytes.ofString "\x7b\"n\":$\x7b\x7bN\x7d\x7d\x7d") =
          .ok (Bytes.ofString "\x7b\"n\":2\x7d") := by cbv
    refine .inl ⟨fun _ => some "2", Bytes.ofString "\x7b\"n\":$\x7b\x7bN\x7d\x7d\x7d", ?_⟩
    rw [ofDocument, Traced.map, Substitution.run, Traced.value_noting, hreplaced]
    rfl
  have haccepted : ∀ s ∈ wideningSteps, s.Accepted := by
    intro s hs config hconfig
    subst hconfig
    obtain rfl : config = ⟨.ofNat 2⟩ := by simpa [wideningSteps] using hs
    exact check_eq_ok_iff.2 (by decide +kernel)
  obtain ⟨⟨answers, m', hvalue, hafter, hlength, -⟩, -⟩ := session_answers hbuilt haccepted
  exact ⟨_, hbuilt, haccepted, answers, m', hvalue, hafter, hlength, hafter.config_eq⟩

end Matcher

end DocMatch
