import DocMatch.Proofs.Compare.Level
import DocMatch.Proofs.Matcher.Log

/-!
What a call tells of the values that were substituted. Two matchers that give the same answer and
visit the same paths note the same events, but for the kinds at those paths, the arrays met there
and the texts of a difference. Main statements: `run_alike`, and `values_told_apart` for what the
exceptions are needed for.
-/

namespace DocMatch

namespace Event

def visited? : Event → Option String
  | visiting path .. => some path
  | _ => none

def isPairing : Event → Bool
  | comparingArrays .. => true
  | _ => false

def isDifference : Event → Bool
  | mismatch _ => true
  | _ => false

def looseFields : List String := ["expected_kind", "actual_kind", "expected", "actual"]

def boundFields (e : Event) : List (String × FieldValue) :=
  e.fields.filter fun field => !looseFields.contains field.1

/-- Two events show the same but for the values of the loose fields. -/
structure Resembles (e e' : Event) : Prop where
  level_eq : e.level = e'.level
  target_eq : e.target = e'.target
  message_eq : e.message? = e'.message?
  names_eq : e.fields.map (·.1) = e'.fields.map (·.1)
  boundFields_eq : e.boundFields = e'.boundFields

theorem Resembles.refl (e : Event) : Resembles e e := ⟨rfl, rfl, rfl, rfl, rfl⟩

theorem resembles_of_visited? {e e' : Event} {path : String} (h : e.visited? = some path)
    (h' : e'.visited? = some path) : Resembles e e' := by
  cases e with
  | visiting p k l =>
    cases e' with
    | visiting p' k' l' =>
      obtain rfl : p = path := Option.some.inj h
      obtain rfl : p' = p := Option.some.inj h'
      exact ⟨rfl, rfl, rfl, rfl, rfl⟩
    | _ => cases h'
  | _ => cases h

theorem resembles_mismatch {d d' : Diagnostic} (h : d.path = d'.path) :
    Resembles (.mismatch d) (.mismatch d') := by
  refine ⟨rfl, rfl, rfl, rfl, ?_⟩
  simp [boundFields, looseFields, fields, header, h, operation?, name?]

theorem forall₂_visited {l : List Event} (h : ∀ e ∈ l, e.isVisit = true) :
    List.Forall₂ (fun e path => e.visited? = some path) (l.filter (!·.isPairing))
      (l.filterMap visited?) := by
  induction l with
  | nil => exact .nil
  | cons e l ih =>
    obtain ⟨he, hl⟩ := List.forall_mem_cons.1 h
    cases e with
    | visiting => exact .cons rfl (ih hl)
    | comparingArrays => exact ih hl
    | _ => cases he

theorem forall₂_resembles {l l' : List Event} {paths : List String}
    (h : List.Forall₂ (fun e path => e.visited? = some path) l paths)
    (h' : List.Forall₂ (fun e path => e.visited? = some path) l' paths) :
    List.Forall₂ Resembles l l' := by
  induction h generalizing l' with
  | nil =>
    cases h'
    exact .nil
  | cons he _ ih =>
    cases h' with
    | cons he' htail => exact .cons (resembles_of_visited? he he') (ih htail)

end Event

namespace Matcher

open Compare Event

/-- Calls of two matchers on a document that end alike: the same answer, and a difference or an
error at the same path, if there is one, after visits of the same paths. -/
structure EndAlike (m m' : Matcher) (actual : Bytes) : Prop where
  answer_eq : (m.run actual).value.1 = (m'.run actual).value.1
  path_eq : (m.evaluate actual).value.diagnostic?.map Diagnostic.path =
    (m'.evaluate actual).value.diagnostic?.map Diagnostic.path
  visited_eq : (m.evaluate actual).events.filterMap visited? =
    (m'.evaluate actual).events.filterMap visited?

section

variable {m m' : Matcher} {actual : Bytes}

theorem closing_resembles {v v' : Verdict} (hanswer : answer v.outcome = answer v'.outcome)
    (hpath : v.diagnostic?.map Diagnostic.path = v'.diagnostic?.map Diagnostic.path) :
    List.Forall₂ Resembles (closing v.outcome) (closing v'.outcome) ∧
      (closing v.outcome).filter (!·.isDifference) =
        (closing v'.outcome).filter (!·.isDifference) := by
  cases v with
  | matched =>
    cases v' with
    | matched => exact ⟨.cons (.refl _) .nil, rfl⟩
    | mismatch d' => simp [answer, Verdict.outcome] at hanswer
    | failed d' e' => simp [answer, Verdict.outcome] at hanswer
  | mismatch d =>
    cases v' with
    | matched => simp [answer, Verdict.outcome] at hanswer
    | mismatch d' =>
      exact ⟨.cons (resembles_mismatch (Option.some.inj hpath)) (.cons (.refl _) .nil), rfl⟩
    | failed d' e' => simp [answer, Verdict.outcome] at hanswer
  | failed d e =>
    cases v' with
    | matched => simp [answer, Verdict.outcome] at hanswer
    | mismatch d' => simp [answer, Verdict.outcome] at hanswer
    | failed d' e' =>
      have hcategory : e.category = e'.category :=
        congrArg Report.category (Except.error.inj hanswer)
      have hpath' : d.path = d'.path := Option.some.inj hpath
      have hclosing : closing (Verdict.failed d e).outcome =
          closing (Verdict.failed d' e').outcome := by
        simp only [closing, Verdict.outcome, hcategory, hpath']
      rw [hclosing]
      exact ⟨List.forall₂_same.2 fun e _ => .refl e, rfl⟩

theorem filter_closing (v : Verdict) :
    (closing v.outcome).filter (!·.isPairing) = closing v.outcome := by
  cases v <;> rfl

theorem isVisit_of_mem_evaluate (m : Matcher) (actual : Bytes) :
    ∀ e ∈ (m.evaluate actual).events, e.isVisit = true :=
  Compare.notes_documents _ _ _

/-- Calls that end alike note the same, pairings of arrays and loose fields aside. Only the texts of
a difference can add to what the places visited tell. -/
theorem run_alike (h : EndAlike m m' actual) :
    List.Forall₂ Resembles ((m.run actual).events.filter (!·.isPairing))
      ((m'.run actual).events.filter (!·.isPairing)) ∧
    ((m.evaluate actual).events = (m'.evaluate actual).events →
      (m.run actual).events.filter (!·.isDifference) =
        (m'.run actual).events.filter (!·.isDifference)) := by
  obtain ⟨hclosing, hcommon⟩ := closing_resembles h.answer_eq h.path_eq
  constructor
  · rw [events_run, events_run]
    have hvisits := forall₂_visited (isVisit_of_mem_evaluate m actual)
    have hvisits' := forall₂_visited (isVisit_of_mem_evaluate m' actual)
    rw [← h.visited_eq] at hvisits'
    simp only [List.filter_cons, List.filter_append, filter_closing]
    exact .cons (.refl _) (List.rel_append (forall₂_resembles hvisits hvisits') hclosing)
  · intro hvisits
    rw [events_run, events_run, hvisits]
    simp only [List.filter_cons, List.filter_append, hcommon]

end

/-- The log of a call tells two values of a variable apart that its end does not. -/
def TellsApart (document actual : Bytes) (value value' : String) : Prop :=
  ∃ m m', (ofDocument (.ofList [("T", value)]) document).value = .ok m ∧
    (ofDocument (.ofList [("T", value')]) document).value = .ok m' ∧ EndAlike m m' actual ∧
    (m.run actual).events.map fields ≠ (m'.run actual).events.map fields

theorem value_ofDocument {bindings : Bindings} {document text : Bytes}
    (h : Substitution.replaceAll bindings document = .ok text) :
    (ofDocument bindings document).value = .ok (ofText text) := by
  rw [ofDocument, Traced.map, Substitution.run, Traced.value_noting, h]
  rfl

theorem tellsApart {document actual text text' : Bytes} {value value' : String}
    {visits visits' : List Event} {v v' : Verdict}
    (h : Substitution.replaceAll (.ofList [("T", value)]) document = .ok text)
    (h' : Substitution.replaceAll (.ofList [("T", value')]) document = .ok text')
    (hrun : documents .default text actual = ⟨visits, v⟩)
    (hrun' : documents .default text' actual = ⟨visits', v'⟩)
    (hanswer : answer v.outcome = answer v'.outcome)
    (hpath : v.diagnostic?.map Diagnostic.path = v'.diagnostic?.map Diagnostic.path)
    (hvisited : visits.filterMap visited? = visits'.filterMap visited?)
    (hne : (visits ++ closing v.outcome).map fields ≠ (visits' ++ closing v'.outcome).map fields) :
    TellsApart document actual value value' := by
  have hevaluate : (ofText text).evaluate actual = ⟨visits, v⟩ := hrun
  have hevaluate' : (ofText text').evaluate actual = ⟨visits', v'⟩ := hrun'
  refine ⟨_, _, value_ofDocument h, value_ofDocument h', ⟨?_, ?_, ?_⟩, fun heq => hne ?_⟩
  · rw [run, run, hevaluate, hevaluate']
    exact hanswer
  · rwa [hevaluate, hevaluate']
  · rwa [hevaluate, hevaluate']
  · rw [events_run, events_run, hevaluate, hevaluate'] at heq
    exact (List.cons.inj heq).2

theorem tellsApart_expectedKind :
    TellsApart (Bytes.ofString r#"{"t":${{T}}}"#) (Bytes.ofString r#"{"t":[]}"#) "[]"
      "\"\x7b\x7bBeEmpty()\x7d\x7d\"" := by
  have hactual : objectRoot (Bytes.ofString r#"{"t":[]}"#) =
      .ok ⟨.object, Bytes.ofString r#"{"t":[]}"#⟩ := by cbv
  have helements : Document.elements (Bytes.ofString "[]") = .ok [] := by cbv
  have hget : (Fields.ofList [("t", ⟨.array, Bytes.ofString "[]"⟩)]).get? "t" =
      some ⟨.array, Bytes.ofString "[]"⟩ := rfl
  have hrun : documents .default (Bytes.ofString r#"{"t":[]}"#) (Bytes.ofString r#"{"t":[]}"#) =
      ⟨[.visiting "" .object .object, .visiting ".t" .array .array, .comparingArrays ".t" 0 0],
        .matched⟩ := by
    have hboth : bothFields ⟨.object, Bytes.ofString r#"{"t":[]}"#⟩
        ⟨.object, Bytes.ofString r#"{"t":[]}"#⟩ =
          .ok (.ofList [("t", ⟨.array, Bytes.ofString "[]"⟩)],
            .ofList [("t", ⟨.array, Bytes.ofString "[]"⟩)]) := by cbv
    rw [documents_of_objectRoot hactual hactual, nodes_of_field rfl hboth hget,
      nodes_of_array rfl helements]
    simp only [helements]
    rfl
  have hrun' : documents .default (Bytes.ofString r#"{"t":"{{BeEmpty()}}"}"#)
      (Bytes.ofString r#"{"t":[]}"#) =
        ⟨[.visiting "" .object .object, .visiting ".t" .string .array], .matched⟩ := by
    have hexpected : objectRoot (Bytes.ofString r#"{"t":"{{BeEmpty()}}"}"#) =
        .ok ⟨.object, Bytes.ofString r#"{"t":"{{BeEmpty()}}"}"#⟩ := by cbv
    have hboth : bothFields ⟨.object, Bytes.ofString r#"{"t":"{{BeEmpty()}}"}"#⟩
        ⟨.object, Bytes.ofString r#"{"t":[]}"#⟩ =
          .ok (.ofList [("t", ⟨.string, Bytes.ofString "\"\x7b\x7bBeEmpty()\x7d\x7d\""⟩)],
            .ofList [("t", ⟨.array, Bytes.ofString "[]"⟩)]) := by cbv
    rw [documents_of_objectRoot hexpected hactual, nodes_of_field rfl hboth hget,
      nodes_of_array rfl helements]
    cbv
  exact tellsApart (by cbv) (by cbv) hrun hrun' rfl rfl rfl (by decide +kernel)

theorem tellsApart_actualKind :
    TellsApart (Bytes.ofString r#"{"a":${{T}}}"#) (Bytes.ofString r#"{"a":{"b":[]},"a.b":""}"#)
      "\x7b\x7d,\"a.b\":\"\"" "\x7b\"b\":[]\x7d" := by
  have hactual : objectRoot (Bytes.ofString r#"{"a":{"b":[]},"a.b":""}"#) =
      .ok ⟨.object, Bytes.ofString r#"{"a":{"b":[]},"a.b":""}"#⟩ := by cbv
  have hget : (Fields.ofList [("a", ⟨.object, Bytes.ofString r#"{"b":[]}"#⟩),
      ("a.b", ⟨.string, Bytes.ofString "\"\""⟩)]).get? "a" =
        some ⟨.object, Bytes.ofString r#"{"b":[]}"#⟩ := by cbv
  have hrun : documents .default (Bytes.ofString r#"{"a":{},"a.b":""}"#)
      (Bytes.ofString r#"{"a":{"b":[]},"a.b":""}"#) =
        ⟨[.visiting "" .object .object, .visiting ".a" .object .object,
          .visiting ".a.b" .string .string], .matched⟩ := by
    have hexpected : objectRoot (Bytes.ofString r#"{"a":{},"a.b":""}"#) =
        .ok ⟨.object, Bytes.ofString r#"{"a":{},"a.b":""}"#⟩ := by cbv
    have hboth : bothFields ⟨.object, Bytes.ofString r#"{"a":{},"a.b":""}"#⟩
        ⟨.object, Bytes.ofString r#"{"a":{"b":[]},"a.b":""}"#⟩ =
          .ok (.ofList [("a", ⟨.object, Bytes.ofString "\x7b\x7d"⟩),
              ("a.b", ⟨.string, Bytes.ofString "\"\""⟩)],
            .ofList [("a", ⟨.object, Bytes.ofString r#"{"b":[]}"#⟩),
              ("a.b", ⟨.string, Bytes.ofString "\"\""⟩)]) := by cbv
    have hfirst : nodes .default ("" ++ "." ++ "a") ⟨.object, Bytes.ofString "\x7b\x7d"⟩
        ⟨.object, Bytes.ofString r#"{"b":[]}"#⟩ =
          ⟨[.visiting ".a" .object .object], .matched⟩ := by
      have hinner : bothFields ⟨.object, Bytes.ofString "\x7b\x7d"⟩
          ⟨.object, Bytes.ofString r#"{"b":[]}"#⟩ =
            .ok (.ofList [], .ofList [("b", ⟨.array, Bytes.ofString "[]"⟩)]) := by cbv
      rw [nodes_of_objects rfl hinner]
      rfl
    have hsecond : nodes .default ("" ++ "." ++ "a.b") ⟨.string, Bytes.ofString "\"\""⟩
        ⟨.string, Bytes.ofString "\"\""⟩ =
          ⟨[.visiting ".a.b" .string .string], .matched⟩ := by
      rw [nodes_of_string rfl]
      cbv
    have hlist : (Fields.ofList [("a", ⟨.object, Bytes.ofString "\x7b\x7d"⟩),
        ("a.b", ⟨.string, Bytes.ofString "\"\""⟩)]).toList =
          [("a", ⟨.object, Bytes.ofString "\x7b\x7d"⟩),
            ("a.b", ⟨.string, Bytes.ofString "\"\""⟩)] := by
      cbv
    have hget' : (Fields.ofList [("a", ⟨.object, Bytes.ofString r#"{"b":[]}"#⟩),
        ("a.b", ⟨.string, Bytes.ofString "\"\""⟩)]).get? "a.b" =
          some ⟨.string, Bytes.ofString "\"\""⟩ := by cbv
    rw [documents_of_objectRoot hexpected hactual, nodes_of_objects rfl hboth, hlist]
    simp only [Traced.firstFailure, hget, hget', hfirst, hsecond]
    rfl
  have hrun' : documents .default (Bytes.ofString r#"{"a":{"b":[]}}"#)
      (Bytes.ofString r#"{"a":{"b":[]},"a.b":""}"#) =
        ⟨[.visiting "" .object .object, .visiting ".a" .object .object,
          .visiting ".a.b" .array .array, .comparingArrays ".a.b" 0 0], .matched⟩ := by
    have hexpected : objectRoot (Bytes.ofString r#"{"a":{"b":[]}}"#) =
        .ok ⟨.object, Bytes.ofString r#"{"a":{"b":[]}}"#⟩ := by cbv
    have hboth : bothFields ⟨.object, Bytes.ofString r#"{"a":{"b":[]}}"#⟩
        ⟨.object, Bytes.ofString r#"{"a":{"b":[]},"a.b":""}"#⟩ =
          .ok (.ofList [("a", ⟨.object, Bytes.ofString r#"{"b":[]}"#⟩)],
            .ofList [("a", ⟨.object, Bytes.ofString r#"{"b":[]}"#⟩),
              ("a.b", ⟨.string, Bytes.ofString "\"\""⟩)]) := by cbv
    have hinner : bothFields ⟨.object, Bytes.ofString r#"{"b":[]}"#⟩
        ⟨.object, Bytes.ofString r#"{"b":[]}"#⟩ =
          .ok (.ofList [("b", ⟨.array, Bytes.ofString "[]"⟩)],
            .ofList [("b", ⟨.array, Bytes.ofString "[]"⟩)]) := by cbv
    have helements : Document.elements (Bytes.ofString "[]") = .ok [] := by cbv
    rw [documents_of_objectRoot hexpected hactual, nodes_of_field rfl hboth hget,
      nodes_of_field rfl hinner rfl, nodes_of_array rfl helements]
    simp only [helements]
    rfl
  exact tellsApart (by cbv) (by cbv) hrun hrun' rfl rfl rfl (by decide +kernel)

theorem tellsApart_difference :
    TellsApart (Bytes.ofString r#"{"t":"${{T}}"}"#) (Bytes.ofString r#"{"t":""}"#) "x" "y" := by
  have hactual : objectRoot (Bytes.ofString r#"{"t":""}"#) =
      .ok ⟨.object, Bytes.ofString r#"{"t":""}"#⟩ := by cbv
  have hget : (Fields.ofList [("t", ⟨.string, Bytes.ofString "\"\""⟩)]).get? "t" =
      some ⟨.string, Bytes.ofString "\"\""⟩ := rfl
  have hrun : documents .default (Bytes.ofString r#"{"t":"x"}"#) (Bytes.ofString r#"{"t":""}"#) =
      ⟨[.visiting "" .object .object, .visiting ".t" .string .string],
        .mismatch ⟨".t", "\"x\"", "\"\""⟩⟩ := by
    have hexpected : objectRoot (Bytes.ofString r#"{"t":"x"}"#) =
        .ok ⟨.object, Bytes.ofString r#"{"t":"x"}"#⟩ := by cbv
    have hboth : bothFields ⟨.object, Bytes.ofString r#"{"t":"x"}"#⟩
        ⟨.object, Bytes.ofString r#"{"t":""}"#⟩ =
          .ok (.ofList [("t", ⟨.string, Bytes.ofString "\"x\""⟩)],
            .ofList [("t", ⟨.string, Bytes.ofString "\"\""⟩)]) := by cbv
    rw [documents_of_objectRoot hexpected hactual, nodes_of_field rfl hboth hget,
      nodes_of_string rfl]
    cbv
  have hrun' : documents .default (Bytes.ofString r#"{"t":"y"}"#) (Bytes.ofString r#"{"t":""}"#) =
      ⟨[.visiting "" .object .object, .visiting ".t" .string .string],
        .mismatch ⟨".t", "\"y\"", "\"\""⟩⟩ := by
    have hexpected : objectRoot (Bytes.ofString r#"{"t":"y"}"#) =
        .ok ⟨.object, Bytes.ofString r#"{"t":"y"}"#⟩ := by cbv
    have hboth : bothFields ⟨.object, Bytes.ofString r#"{"t":"y"}"#⟩
        ⟨.object, Bytes.ofString r#"{"t":""}"#⟩ =
          .ok (.ofList [("t", ⟨.string, Bytes.ofString "\"y\""⟩)],
            .ofList [("t", ⟨.string, Bytes.ofString "\"\""⟩)]) := by cbv
    rw [documents_of_objectRoot hexpected hactual, nodes_of_field rfl hboth hget,
      nodes_of_string rfl]
    cbv
  exact tellsApart (by cbv) (by cbv) hrun hrun' rfl rfl rfl (by decide +kernel)

/-- Nothing more can be said than `run_alike` says: the kinds at a path, the arrays met there and
the texts of a difference may come of what was substituted. -/
theorem values_told_apart :
    TellsApart (Bytes.ofString r#"{"t":${{T}}}"#) (Bytes.ofString r#"{"t":[]}"#) "[]"
      "\"\x7b\x7bBeEmpty()\x7d\x7d\"" ∧
    TellsApart (Bytes.ofString r#"{"a":${{T}}}"#) (Bytes.ofString r#"{"a":{"b":[]},"a.b":""}"#)
      "\x7b\x7d,\"a.b\":\"\"" "\x7b\"b\":[]\x7d" ∧
    TellsApart (Bytes.ofString r#"{"t":"${{T}}"}"#) (Bytes.ofString r#"{"t":""}"#) "x" "y" :=
  ⟨tellsApart_expectedKind, tellsApart_actualKind, tellsApart_difference⟩

theorem run_alike_difference :
    ∃ m m', (ofDocument (.ofList [("T", "x")]) (Bytes.ofString r#"{"t":"${{T}}"}"#)).value = .ok m ∧
      (ofDocument (.ofList [("T", "y")]) (Bytes.ofString r#"{"t":"${{T}}"}"#)).value = .ok m' ∧
      EndAlike m m' (Bytes.ofString r#"{"t":""}"#) ∧
      List.Forall₂ Resembles
        ((m.run (Bytes.ofString r#"{"t":""}"#)).events.filter (!·.isPairing))
        ((m'.run (Bytes.ofString r#"{"t":""}"#)).events.filter (!·.isPairing)) := by
  obtain ⟨m, m', hm, hm', halike, -⟩ := tellsApart_difference
  exact ⟨m, m', hm, hm', halike, (run_alike halike).1⟩

end Matcher

end DocMatch
