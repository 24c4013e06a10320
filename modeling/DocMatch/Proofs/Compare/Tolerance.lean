import DocMatch.Proofs.Binary64.Order
import DocMatch.Proofs.Compare.Events
import DocMatch.Proofs.Compare.Level
import DocMatch.Proofs.Utf8

/-!
Comparing under a wider tolerance. Only numbers are compared with it, and a wider one lets more of
them match. So the comparison under the narrower tolerance is the same up to the first number that
the wider one lets pass and the narrower one does not, where it ends in a mismatch. Main statements:
`documents_stopsShort` and, for each way to end, `documents_of_le`.
-/

namespace DocMatch

namespace Traced

/-- The first run is the second, or ends in a mismatch somewhere on its way. -/
def StopsShort (x y : Traced Verdict) : Prop :=
  x = y ∨ (∃ d, x.value = .mismatch d) ∧ x.events <+: y.events

theorem stopsShort_pure {v w : Verdict} {d : Diagnostic} (h : v = w ∨ v = .mismatch d) :
    StopsShort (.pure v) (.pure w) := by
  rcases h with rfl | rfl
  · exact .inl rfl
  · exact .inr ⟨⟨d, rfl⟩, List.prefix_rfl⟩

theorem StopsShort.noting {x y : Traced Verdict} (h : StopsShort x y) (e : Event) :
    StopsShort (x.noting e) (y.noting e) := by
  rcases h with rfl | ⟨hvalue, hevents⟩
  · exact .inl rfl
  · exact .inr ⟨hvalue, List.cons_prefix_cons.2 ⟨rfl, hevents⟩⟩

theorem stopsShort_firstFailure {α : Type} {compare compare' : α → Traced Verdict} {l : List α}
    (h : ∀ a ∈ l, StopsShort (compare a) (compare' a)) :
    StopsShort (firstFailure compare l) (firstFailure compare' l) := by
  -- by induction on the items. Where the first run stops at an item, the second may go on to any
  -- end, an error included
  induction l with
  | nil => exact .inl rfl
  | cons a rest ih =>
    obtain ⟨ha, hrest⟩ := List.forall_mem_cons.1 h
    rcases ha with heq | ⟨⟨d, hvalue⟩, hevents⟩
    · by_cases hmatched : (compare a).value = .matched
      · rw [firstFailure_cons_of_matched hmatched, firstFailure_cons_of_matched (heq ▸ hmatched),
          ← heq]
        rcases ih hrest with hsame | ⟨hvalue, hevents⟩
        · rw [hsame]
          exact .inl rfl
        · exact .inr ⟨hvalue, (List.prefix_append_right_inj _).2 hevents⟩
      · rw [firstFailure_cons_of_ne hmatched, firstFailure_cons_of_ne (heq ▸ hmatched)]
        exact .inl heq
    · have hne : (compare a).value ≠ .matched := by simp [hvalue]
      rw [firstFailure_cons_of_ne hne]
      exact .inr ⟨⟨d, hvalue⟩, hevents.trans (events_prefix_firstFailure compare' a rest)⟩

theorem compositional_stopsShort : Compositional StopsShort where
  pure _ := .inl rfl
  noting _ h := h.noting _
  firstFailure := stopsShort_firstFailure

end Traced

namespace Compare

open Traced (StopsShort compositional_stopsShort stopsShort_pure)

section

variable {config config' : Config} (h : config.tolerance.isFinite = true)
  (h' : config'.tolerance.isFinite = true) (hle : config.tolerance.le config'.tolerance = true)

include h h' hle

theorem number_of_le (path : String) (e a : Node) :
    number config path e a = number config' path e a ∨
      number config path e a = .mismatch (byValue path e a) := by
  cases hx : a.numberValue with
  | error error => exact .inl (by simp only [number, hx])
  | ok x =>
    cases hekind : e.kind with
    | number =>
      cases htarget : e.numberValue with
      | error error => exact .inl (by simp only [number, hx, hekind, htarget, bind, Except.bind])
      | ok target =>
        rw [number_of_numberValue hekind hx htarget, number_of_numberValue hekind hx htarget]
        cases hwithin : NumberTest.within x target config.tolerance with
        | false => exact .inr rfl
        | true =>
          rw [NumberTest.within_mono h h' hle hwithin]
          exact .inl rfl
    | _ => exact .inl (by simp only [number, hx, hekind])

theorem documents_stopsShort (expected actual : Bytes) :
    StopsShort (documents config expected actual) (documents config' expected actual) :=
  rel_documents compositional_stopsShort
    (fun path e a => stopsShort_pure (number_of_le h h' hle path e a)) expected actual

end

/-- Under the wider tolerance a match stays a match and an error the same error. What is a mismatch
there is one under the narrower tolerance too, at that place or at one visited before. -/
theorem documents_of_le {config config' : Config} (hvalid : config.isValid = true)
    (hvalid' : config'.isValid = true) (hle : config.tolerance.le config'.tolerance = true)
    (expected actual : Bytes) :
    ((documents config expected actual).value = .matched →
      (documents config' expected actual).value = .matched) ∧
    (∀ d error, (documents config expected actual).value = .failed d error →
      (documents config' expected actual).value = .failed d error) ∧
    (∀ d', (documents config' expected actual).value = .mismatch d' →
      ∃ d, (documents config expected actual).value = .mismatch d) ∧
    (documents config expected actual).events <+: (documents config' expected actual).events := by
  have h := documents_stopsShort (Config.isFinite_tolerance hvalid) (Config.isFinite_tolerance hvalid')
    hle expected actual
  rcases h with heq | ⟨⟨d, hvalue⟩, hevents⟩
  · rw [heq]
    exact ⟨id, fun _ _ => id, fun d hd => ⟨d, hd⟩, List.prefix_rfl⟩
  · rw [hvalue]
    exact ⟨Verdict.noConfusion, fun _ _ => Verdict.noConfusion, fun _ _ => ⟨d, rfl⟩, hevents⟩

theorem documents_of_le_twoFields :
    Config.isValid ⟨.zero⟩ = true ∧ Config.isValid ⟨.one⟩ = true ∧ Binary64.zero.le .one = true ∧
      (documents ⟨.one⟩ (Bytes.ofString r#"{"a":0,"b":0}"#)
        (Bytes.ofString r#"{"a":1,"b":2}"#)).value = .mismatch ⟨".b", "0", "2"⟩ ∧
      ∃ d, (documents ⟨.zero⟩ (Bytes.ofString r#"{"a":0,"b":0}"#)
        (Bytes.ofString r#"{"a":1,"b":2}"#)).value = .mismatch d := by
  have hzero : Config.isValid ⟨.zero⟩ = true := by decide +kernel
  have hone : Config.isValid ⟨.one⟩ = true := by decide +kernel
  have hle : Binary64.zero.le .one = true := by decide +kernel
  have he : objectRoot (Bytes.ofString r#"{"a":0,"b":0}"#) =
      .ok ⟨.object, Bytes.ofString r#"{"a":0,"b":0}"#⟩ := by
    cbv
  have ha : objectRoot (Bytes.ofString r#"{"a":1,"b":2}"#) =
      .ok ⟨.object, Bytes.ofString r#"{"a":1,"b":2}"#⟩ := by
    cbv
  have hboth : bothFields ⟨.object, Bytes.ofString r#"{"a":0,"b":0}"#⟩
      ⟨.object, Bytes.ofString r#"{"a":1,"b":2}"#⟩ =
        .ok (.ofList [("a", ⟨.number, Bytes.ofString "0"⟩), ("b", ⟨.number, Bytes.ofString "0"⟩)],
          .ofList [("a", ⟨.number, Bytes.ofString "1"⟩), ("b", ⟨.number, Bytes.ofString "2"⟩)]) := by
    cbv
  have htarget : Node.numberValue ⟨.number, Bytes.ofString "0"⟩ = .ok .zero := by
    rw [Node.numberValue, Node.text, Utf8.lossy_ofString]
    decide +kernel
  have ha₁ : Node.numberValue ⟨.number, Bytes.ofString "1"⟩ = .ok .one := by
    rw [Node.numberValue, Node.text, Utf8.lossy_ofString]
    decide +kernel
  have hb : Node.numberValue ⟨.number, Bytes.ofString "2"⟩ = .ok (Binary64.one.add .one) := by
    rw [Node.numberValue, Node.text, Utf8.lossy_ofString]
    decide +kernel
  have hwithin : NumberTest.within .one .zero .one = true := by decide +kernel
  have hbeyond : NumberTest.within (Binary64.one.add .one) .zero .one = false := by decide +kernel
  have hv : (documents ⟨.one⟩ (Bytes.ofString r#"{"a":0,"b":0}"#)
      (Bytes.ofString r#"{"a":1,"b":2}"#)).value = .mismatch ⟨".b", "0", "2"⟩ := by
    have hfirst : (nodes ⟨.one⟩ (("" ++ ".") ++ "a") ⟨.number, Bytes.ofString "0"⟩
        ⟨.number, Bytes.ofString "1"⟩).value = .matched := by
      rw [value_nodes]
      show number _ _ _ _ = _
      rw [number_of_numberValue rfl ha₁ htarget, hwithin]
      rfl
    have hsecond : (nodes ⟨.one⟩ (("" ++ ".") ++ "b") ⟨.number, Bytes.ofString "0"⟩
        ⟨.number, Bytes.ofString "2"⟩).value = .mismatch ⟨".b", "0", "2"⟩ := by
      rw [value_nodes]
      show number _ _ _ _ = _
      rw [number_of_numberValue rfl hb htarget, hbeyond]
      cbv
    rw [documents_of_objectRoot he ha, value_nodes, level_of_objects rfl hboth]
    show Verdict.first [(nodes _ _ _ _).value, (nodes _ _ _ _).value] = _
    simp only [Verdict.first, hfirst, hsecond]
    rfl
  exact ⟨hzero, hone, hle, hv, (documents_of_le hzero hone hle _ _).2.2.1 _ hv⟩

end Compare

end DocMatch
