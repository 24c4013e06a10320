import DocMatch.Event.Capture
import DocMatch.Proofs.Compare.Events
import DocMatch.Proofs.Matcher.History

/-!
The log of a session. What a step adds to it follows from the steps before it, as its answer does:
a comparison that is an operation opens with its start, notes the places visited, then the
difference if there is one, and closes with an end or an error that tell what was answered. Main
statement: `session_recorded`.
-/

namespace DocMatch

namespace Event

def isBoundary (e : Event) : Bool := e.isNamed "start" || e.isNamed "end" || e.isNamed "end_error"

def Closes (op : Operation) (e : Event) : Prop :=
  e.operation? = some op ∧ (e.name? = some "end" ∨ e.name? = some "end_error")

/-- Operations follow each other without overlap, and each that begins also ends. -/
inductive Bracketed : List Event → Prop where
  | nil : Bracketed []
  | aside {e : Event} {rest : List Event} :
      e.isBoundary = false → Bracketed rest → Bracketed (e :: rest)
  | operation {op : Operation} {inner : List Event} {e : Event} {rest : List Event} :
      (∀ i ∈ inner, i.isBoundary = false) → e.Closes op → Bracketed rest →
      Bracketed (.started op :: (inner ++ e :: rest))

theorem name?_started (op : Operation) : (started op).name? = some "start" := rfl

theorem countP_isNamed_eq_zero {name : String} {l : List Event}
    (hname : name = "start" ∨ name = "end" ∨ name = "end_error")
    (h : ∀ e ∈ l, e.isBoundary = false) : l.countP (isNamed name) = 0 := by
  refine List.countP_eq_zero.2 fun e he => ?_
  have := h e he
  rw [isBoundary, Bool.or_eq_false_iff, Bool.or_eq_false_iff] at this
  obtain ⟨⟨hstart, hend⟩, herror⟩ := this
  rcases hname with rfl | rfl | rfl
  · simpa using hstart
  · simpa using hend
  · simpa using herror

theorem Bracketed.count {log : List Event} (h : Bracketed log) :
    log.countP (isNamed "start") =
      log.countP (isNamed "end") + log.countP (isNamed "end_error") := by
  induction h with
  | nil => rfl
  | @aside e rest he _ ih =>
    simp only [isBoundary, Bool.or_eq_false_iff] at he
    simp [he, ih]
  | @operation op inner e rest hinner hclose _ ih =>
    have hstart := countP_isNamed_eq_zero (.inl rfl) hinner
    have hend := countP_isNamed_eq_zero (.inr (.inl rfl)) hinner
    have herror := countP_isNamed_eq_zero (.inr (.inr rfl)) hinner
    obtain ⟨-, hname | hname⟩ := hclose
    · simp [hstart, hend, herror, ih, isNamed, hname, name?_started]
      omega
    · simp [hstart, hend, herror, ih, isNamed, hname, name?_started]
      omega

theorem Bracketed.append_of_aside {front log : List Event}
    (hfront : ∀ e ∈ front, e.isBoundary = false) (h : Bracketed log) : Bracketed (front ++ log) := by
  induction front with
  | nil => exact h
  | cons e front ih =>
    obtain ⟨he, hfront⟩ := List.forall_mem_cons.1 hfront
    exact .aside he (ih hfront)

theorem isBoundary_of_isVisit {e : Event} (h : e.isVisit = true) : e.isBoundary = false := by
  cases e with
  | visiting | comparingArrays => rfl
  | _ => cases h

end Event

namespace Matcher

open Event

def Answer.isDifference : Answer → Bool
  | ran (.ok false) => true
  | _ => false

def visits (expected : Bytes) (past : List Step) (actual : Bytes) : List Event :=
  (Compare.documents (inForce past) expected actual).events

/-- What a step after the steps `past` that is answered so adds to the log. -/
inductive Logged (expected : Bytes) (past : List Step) : Step → Answer → List Event → Prop where
  | matched {actual : Bytes} :
      verdictAfter expected past actual = .matched →
      Logged expected past (.run actual) (.ran (.ok true))
        (.started .matching :: (visits expected past actual ++ [.matched true]))
  | mismatch {actual : Bytes} {d : Diagnostic} :
      verdictAfter expected past actual = .mismatch d →
      Logged expected past (.run actual) (.ran (.ok false))
        (.started .matching :: (visits expected past actual ++ [.mismatch d, .matched false]))
  | failed {actual : Bytes} {report : Report} {path : String} :
      report.path = some path →
      Logged expected past (.run actual) (.ran (.error report))
        (.started .matching ::
          (visits expected past actual ++ [.matchFailed report.category path]))
  | evaluated {actual : Bytes} :
      Logged expected past (.evaluate actual) (.verdict (verdictAfter expected past actual))
        (visits expected past actual)
  | silent {s : Step} {answer : Answer} :
      (∀ actual, s ≠ .run actual) → (∀ actual, s ≠ .evaluate actual) →
      Logged expected past s answer []

/-- The answers to steps after the steps `past`, and the log of them. A refusal is the last
answer. -/
inductive SessionLog (expected : Bytes) :
    List Step → List Step → List Answer → List Event → Prop where
  | done {past : List Step} : SessionLog expected past [] [] []
  | step {past rest : List Step} {s : Step} {answer : Answer} {answers : List Answer}
      {events more : List Event} :
      s.Accepted → Answered expected past s answer → Logged expected past s answer events →
      SessionLog expected (past ++ [s]) rest answers more →
      SessionLog expected past (s :: rest) (answer :: answers) (events ++ more)
  | refused {past rest : List Step} {s : Step} {report : Report} :
      ¬ s.Accepted → SessionLog expected past (s :: rest) [.refused report] []

/-- The answers of a session for a document, and the log from the making of the matcher on. -/
inductive Recorded (bindings : Bindings) (document : Bytes) (steps : List Step) :
    Except Report (List Answer × Option Matcher) → List Event → Prop where
  | unmade {report : Report} {e : MatchError} :
      Substitution.replaceAll bindings document = .error e → report.category = e.category →
      Recorded bindings document steps (.error report)
        [.started .substitute, .substitutionFailed report.category]
  | made {expected : Bytes} {answers : List Answer} {last : Option Matcher}
      {events : List Event} :
      Substitution.replaceAll bindings document = .ok expected →
      SessionLog expected [] steps answers events →
      Recorded bindings document steps (.ok (answers, last))
        (.started .substitute ::
          (Substitution.resolutions bindings document ++ .substituted :: events))

/-- Every operation in the log begins and ends, and every difference in it was answered. -/
structure Accounted (answers : List Answer) (log : List Event) : Prop where
  bracketed : Bracketed log
  starts : log.countP (isNamed "start") =
    log.countP (isNamed "end") + log.countP (isNamed "end_error")
  differences : log.countP (isNamed "mismatch") = answers.countP Answer.isDifference

def answersOf : Except Report (List Answer × Option Matcher) → List Answer
  | .ok (answers, _) => answers
  | .error _ => []

section

variable {expected : Bytes} {past : List Step} {m : Matcher}

theorem isVisit_of_mem_visits {actual : Bytes} {e : Event}
    (he : e ∈ visits expected past actual) : e.isVisit = true :=
  Compare.notes_documents _ _ _ e he

theorem isBoundary_of_mem_visits (actual : Bytes) :
    ∀ e ∈ visits expected past actual, e.isBoundary = false :=
  fun _ he => isBoundary_of_isVisit (isVisit_of_mem_visits he)

theorem events_run (m : Matcher) (actual : Bytes) :
    (m.run actual).events =
      .started .matching ::
        ((m.evaluate actual).events ++ closing (m.evaluate actual).value.outcome) :=
  rfl

theorem After.evaluate_eq (h : After expected past m) (actual : Bytes) :
    m.evaluate actual = Compare.documents (inForce past) expected actual := by
  rw [evaluate, h.expected_eq, h.config_eq]

theorem After.logged_run (h : After expected past m) (actual : Bytes) :
    Logged expected past (.run actual) (.ran (m.run actual).value.1) (m.run actual).events := by
  have hanswer : (m.run actual).value.1 = answer (m.evaluate actual).value.outcome := rfl
  rw [hanswer, events_run, h.evaluate_eq, ← visits, ← verdictAfter]
  cases hv : verdictAfter expected past actual with
  | matched => exact .matched hv
  | mismatch d => exact .mismatch hv
  | failed d e => exact .failed rfl

theorem After.logged (h : After expected past m) (s : Step) :
    Logged expected past s (m.step s).value.1 (m.step s).events := by
  cases s with
  | run actual => exact h.logged_run actual
  | evaluate actual =>
    rw [Matcher.step, h.evaluate_eq]
    exact .evaluated
  | configure config =>
    have hsilent : (m.step (.configure config)).events = [] := by
      rw [Matcher.step]
      split <;> rfl
    rw [hsilent]
    exact .silent (by simp) (by simp)
  | _ => exact .silent (by simp) (by simp)

theorem events_steps_cons {s : Step} {rest : List Step} {answer : Answer} {m' : Matcher}
    (h : (m.step s).value = (answer, some m')) :
    (m.steps (s :: rest)).events = (m.step s).events ++ (m'.steps rest).events := by
  rw [Matcher.steps, Traced.events_bind, h]
  rfl

theorem After.sessionLog (h : After expected past m) (steps : List Step) :
    SessionLog expected past steps (m.steps steps).value.1 (m.steps steps).events := by
  -- by induction on the steps still to come, of which the first extends what is past
  induction steps generalizing past m with
  | nil => exact .done
  | cons s rest ih =>
    by_cases hs : s.Accepted
    · obtain ⟨answer, m', hvalue, hanswer, h'⟩ := h.step hs
      have hlogged := h.logged s
      rw [hvalue] at hlogged
      rw [value_steps_cons hvalue, events_steps_cons hvalue]
      exact .step hs hanswer hlogged (ih h')
    · obtain ⟨config, report, rfl, hstep⟩ := m.step_refused hs
      rw [Matcher.steps, hstep]
      exact .refused hs

theorem Logged.bracketed {s : Step} {answer : Answer} {events more : List Event}
    (h : Logged expected past s answer events) (hmore : Bracketed more) :
    Bracketed (events ++ more) := by
  cases h with
  | @matched actual _ =>
    simpa using Bracketed.operation (isBoundary_of_mem_visits actual)
      (⟨rfl, .inl rfl⟩ : (Event.matched true).Closes .matching) hmore
  | @mismatch actual d _ =>
    have hinner : ∀ e ∈ visits expected past actual ++ [.mismatch d], e.isBoundary = false := by
      refine List.forall_mem_append.2 ⟨isBoundary_of_mem_visits actual, ?_⟩
      exact List.forall_mem_singleton.2 rfl
    simpa using Bracketed.operation hinner
      (⟨rfl, .inl rfl⟩ : (Event.matched false).Closes .matching) hmore
  | @failed actual report path _ =>
    simpa using Bracketed.operation (isBoundary_of_mem_visits actual)
      (⟨rfl, .inr rfl⟩ : (Event.matchFailed report.category path).Closes .matching) hmore
  | @evaluated actual => exact hmore.append_of_aside (isBoundary_of_mem_visits actual)
  | silent => exact hmore

theorem SessionLog.bracketed {steps : List Step} {answers : List Answer} {events : List Event}
    (h : SessionLog expected past steps answers events) : Bracketed events := by
  induction h with
  | done => exact .nil
  | step _ _ hlogged _ ih => exact hlogged.bracketed ih
  | refused => exact .nil

theorem countP_mismatch_visits (actual : Bytes) :
    (visits expected past actual).countP (isNamed "mismatch") = 0 := by
  refine List.countP_eq_zero.2 fun e he => ?_
  have hvisit := isVisit_of_mem_visits he
  cases e with
  | visiting | comparingArrays => exact Bool.false_ne_true
  | _ => cases hvisit

theorem countP_mismatch_call (actual : Bytes) (ending : List Event) :
    (Event.started .matching :: (visits expected past actual ++ ending)).countP
      (isNamed "mismatch") = ending.countP (isNamed "mismatch") := by
  simp [countP_mismatch_visits, isNamed, name?]

theorem Logged.count {s : Step} {answer : Answer} {events : List Event}
    (h : Logged expected past s answer events) (hanswer : Answered expected past s answer) :
    events.countP (isNamed "mismatch") = if answer.isDifference then 1 else 0 := by
  cases h with
  | @matched actual _ => exact countP_mismatch_call actual _
  | @mismatch actual d _ => exact countP_mismatch_call actual _
  | @failed actual report path _ => exact countP_mismatch_call actual _
  | @evaluated actual => exact countP_mismatch_visits actual
  | silent hrun hevaluate =>
    cases hanswer with
    | @ran actual _ => exact absurd rfl (hrun actual)
    | @failed actual _ _ _ => exact absurd rfl (hrun actual)
    | _ => rfl

theorem SessionLog.count {steps : List Step} {answers : List Answer} {events : List Event}
    (h : SessionLog expected past steps answers events) :
    events.countP (isNamed "mismatch") = answers.countP Answer.isDifference := by
  induction h with
  | done => rfl
  | step _ hanswer hlogged _ ih =>
    rw [List.countP_append, hlogged.count hanswer, ih, List.countP_cons, Nat.add_comm]
  | refused => rfl

end

section

variable {bindings : Bindings} {document : Bytes} {steps : List Step}
  {value : Except Report (List Answer × Option Matcher)} {events : List Event}

theorem isBoundary_of_mem_resolutions :
    ∀ e ∈ Substitution.resolutions bindings document, e.isBoundary = false := by
  refine List.forall_mem_cons.2 ⟨rfl, fun e he => ?_⟩
  obtain ⟨name, -, hname⟩ := List.mem_filterMap.1 he
  obtain ⟨value, -, rfl⟩ := Option.map_eq_some_iff.1 hname
  rfl

theorem Recorded.bracketed (h : Recorded bindings document steps value events) :
    Bracketed events := by
  cases h with
  | @unmade report e _ _ =>
    exact @Bracketed.operation .substitute [] _ [] (by simp) ⟨rfl, .inr rfl⟩ .nil
  | made _ hsession =>
    exact .operation isBoundary_of_mem_resolutions ⟨rfl, .inl rfl⟩ hsession.bracketed

theorem countP_mismatch_resolutions :
    (Substitution.resolutions bindings document).countP (isNamed "mismatch") = 0 := by
  refine List.countP_eq_zero.2 (List.forall_mem_cons.2 ⟨Bool.false_ne_true, fun e he => ?_⟩)
  obtain ⟨name, -, hname⟩ := List.mem_filterMap.1 he
  obtain ⟨value, -, rfl⟩ := Option.map_eq_some_iff.1 hname
  exact Bool.false_ne_true

theorem Recorded.count (h : Recorded bindings document steps value events) :
    events.countP (isNamed "mismatch") = (answersOf value).countP Answer.isDifference := by
  cases h with
  | unmade => rfl
  | made _ hsession =>
    simp [countP_mismatch_resolutions, isNamed, name?, hsession.count, answersOf]

theorem recorded_ofDocument (bindings : Bindings) (document : Bytes) (steps : List Step) :
    Recorded bindings document steps (session (ofDocument bindings document) steps).value
      (session (ofDocument bindings document) steps).events := by
  unfold session ofDocument Substitution.run
  cases hreplaced : Substitution.replaceAll bindings document with
  | error e => exact .unmade hreplaced rfl
  | ok expected =>
    have hafter : After expected [] (ofText expected) :=
      ⟨rfl, rfl, .none fun _ => List.not_mem_nil⟩
    simpa [Traced.bind, Traced.map, Traced.noting, Except.map] using
      @Recorded.made bindings document steps expected _ ((ofText expected).steps steps).value.2 _
        hreplaced (hafter.sessionLog steps)

theorem Recorded.accounted (h : Recorded bindings document steps value events) :
    Accounted (answersOf value) events :=
  ⟨h.bracketed, h.bracketed.count, h.count⟩

end

/-- The log of a session tells its answers, whether the document is at hand or in a file. -/
theorem session_recorded (bindings : Bindings) (path : String) (document : Bytes)
    (steps : List Step) :
    ofFile bindings path (.ok document) = ofDocument bindings document ∧
    Recorded bindings document steps (session (ofDocument bindings document) steps).value
      (session (ofDocument bindings document) steps).events ∧
    Accounted (answersOf (session (ofDocument bindings document) steps).value)
      (session (ofDocument bindings document) steps).events ∧
    ∀ expected past actual, ∀ e ∈ visits expected past actual, e.isVisit = true := by
  have h := recorded_ofDocument bindings document steps
  exact ⟨rfl, h, h.accounted, fun _ _ _ _ => isVisit_of_mem_visits⟩

end Matcher

end DocMatch
