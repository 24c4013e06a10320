import Mathlib
import DocMatch.Proofs.Substitution

/-!
What a substitution shows in the log. It shows which names were met and whether all of them have
values, and nothing of the values: two substitutions in one text that have values for the same names
log the same. Main statement: `run_hides_values`.
-/

namespace DocMatch

/-- What can be seen of an event. How long an operation took stays blank. -/
structure Event.Shown where
  level : Level
  target : String
  message? : Option String
  fields : List (String × FieldValue)
  deriving DecidableEq

def Event.shown (e : Event) : Shown := ⟨e.level, e.target, e.message?, e.fields⟩

namespace Substitution

open Event

def redacted (name : String) : Shown where
  level := .trace
  target := "gosert_core::expr::substitute"
  message? := some "variable resolved"
  fields := [("name", .plain name), ("value", .plain "***REDACTED***")]

def fullLog (names : List String) : List Shown :=
  (started .substitute).shown :: (substituting names.length).shown ::
    (names.map redacted ++ [substituted.shown])

def refusedLog : List Shown :=
  [(started .substitute).shown, (substitutionFailed .undefinedVariable).shown]

theorem shown_resolved (name : String) (value : Sensitive String) :
    (resolved name value).shown = redacted name := rfl

variable {bindings bindings' : Bindings} {s : Bytes}

theorem map_shown_resolved {names : List String}
    (h : ∀ name ∈ names, (bindings name).isSome = true) :
    (names.filterMap fun name => (bindings name).map fun value => resolved name ⟨value⟩).map shown =
      names.map redacted := by
  induction names with
  | nil => rfl
  | cons name names ih =>
    obtain ⟨hname, hnames⟩ := List.forall_mem_cons.1 h
    obtain ⟨value, hvalue⟩ := Option.isSome_iff_exists.1 hname
    rw [List.filterMap_cons, hvalue, Option.map_some]
    dsimp only
    rw [List.map_cons, ih hnames, shown_resolved, List.map_cons]

theorem shown_run_of_bound (h : ∀ i name, Occurs s i name → (bindings name).isSome = true) :
    (run bindings s).events.map shown = fullLog (names s) := by
  have hnames : ∀ name ∈ names s, (bindings name).isSome = true := by
    intro name hname
    obtain ⟨i, hi⟩ := ((listsNames_names s).mem_iff name).1 hname
    exact h i name hi
  obtain ⟨out, hout⟩ := exists_replaceAll_iff.2 h
  rw [run, hout, Traced.events_noting]
  simp only [resolutions, List.map_cons, List.map_append, List.map_nil, List.cons_append,
    map_shown_resolved hnames, fullLog]

theorem shown_run_of_unbound (h : ∃ i name, Occurs s i name ∧ bindings name = none) :
    (run bindings s).events.map shown = refusedLog := by
  cases hresult : replaceAll bindings s with
  | ok out =>
    obtain ⟨i, name, hi, hnone⟩ := h
    have hsome := exists_replaceAll_iff.1 ⟨out, hresult⟩ i name hi
    rw [hnone] at hsome
    cases hsome
  | error error =>
    obtain ⟨i, name, rfl, -⟩ := replaceAll_eq_error_iff.1 hresult
    rw [run, hresult]
    rfl

/-- Substitutions in one text that have values for the same names log the same. Where all names have
values, they log each name once, in the order in which the names first appear, and end well;
otherwise they log no name at all. -/
theorem run_hides_values
    (h : ∀ i name, Occurs s i name →
      ((bindings name).isSome = true ↔ (bindings' name).isSome = true)) :
    (run bindings s).events.map shown = (run bindings' s).events.map shown ∧
    ((∀ i name, Occurs s i name → (bindings name).isSome = true) →
      ∃ names, ListsNames s names ∧ (run bindings s).events.map shown = fullLog names) ∧
    ((∃ i name, Occurs s i name ∧ bindings name = none) →
      (run bindings s).events.map shown = refusedLog) := by
  refine ⟨?_, fun hbound => ⟨names s, listsNames_names s, shown_run_of_bound hbound⟩,
    shown_run_of_unbound⟩
  by_cases hbound : ∀ i name, Occurs s i name → (bindings name).isSome = true
  · have hbound' : ∀ i name, Occurs s i name → (bindings' name).isSome = true :=
      fun i name hi => (h i name hi).1 (hbound i name hi)
    rw [shown_run_of_bound hbound, shown_run_of_bound hbound']
  · push Not at hbound
    obtain ⟨i, name, hi, hname⟩ := hbound
    have hnone : bindings name = none := Option.not_isSome_iff_eq_none.1 hname
    have hnone' : bindings' name = none := Option.not_isSome_iff_eq_none.1 (mt (h i name hi).2 hname)
    rw [shown_run_of_unbound ⟨i, name, hi, hnone⟩, shown_run_of_unbound ⟨i, name, hi, hnone'⟩]

theorem run_hides_values_twoNames :
    (∀ i name, Occurs (Bytes.ofString "${{B}}${{A}}${{B}}") i name →
      ((Bindings.ofList [("A", "x"), ("B", "y")] name).isSome = true ↔
        (Bindings.ofList [("B", ""), ("A", "s3cret")] name).isSome = true)) ∧
    (run (.ofList [("A", "x"), ("B", "y")]) (Bytes.ofString "${{B}}${{A}}${{B}}")).events.map shown =
      (run (.ofList [("B", ""), ("A", "s3cret")])
        (Bytes.ofString "${{B}}${{A}}${{B}}")).events.map shown := by
  have hsame : ∀ i name, Occurs (Bytes.ofString "${{B}}${{A}}${{B}}") i name →
      ((Bindings.ofList [("A", "x"), ("B", "y")] name).isSome = true ↔
        (Bindings.ofList [("B", ""), ("A", "s3cret")] name).isSome = true) := by
    intro i name hi
    have hnames : names (Bytes.ofString "${{B}}${{A}}${{B}}") = ["B", "A"] := by cbv
    have hmem := ((listsNames_names _).mem_iff name).2 ⟨i, hi⟩
    rw [hnames] at hmem
    rcases List.mem_pair.1 hmem with rfl | rfl
    · decide
    · decide
  exact ⟨hsame, (run_hides_values hsame).1⟩

end Substitution

end DocMatch
