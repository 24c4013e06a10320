import DocMatch.Proofs.Compare.Calls

/-!
What a comparison notes, level by level. What holds of a run whenever it holds of the parts of the
run holds of every comparison; so, however deep it goes, a comparison notes the places it visits and
nothing else. Main statements: `rel_body`, for one level, `rel_documents` and `notes_documents`.
-/

namespace DocMatch

def Event.isVisit : Event → Bool
  | .visiting .. | .comparingArrays .. => true
  | _ => false

namespace Traced

section

variable {α : Type} {compare : α → Traced Verdict} {a : α} {rest : List α}

theorem firstFailure_cons_of_matched (h : (compare a).value = .matched) :
    firstFailure compare (a :: rest) =
      ⟨(compare a).events ++ (firstFailure compare rest).events,
        (firstFailure compare rest).value⟩ := by
  simp only [firstFailure, h]

theorem firstFailure_cons_of_ne (h : (compare a).value ≠ .matched) :
    firstFailure compare (a :: rest) = compare a := by
  rw [firstFailure]
  split
  next hmatched => exact absurd hmatched h
  next => rfl

theorem firstFailure_singleton (compare : α → Traced Verdict) (a : α) :
    firstFailure compare [a] = compare a := by
  by_cases h : (compare a).value = .matched
  · rw [firstFailure_cons_of_matched h, firstFailure, List.append_nil, ← h]
  · exact firstFailure_cons_of_ne h

theorem events_prefix_firstFailure (compare : α → Traced Verdict) (a : α) (rest : List α) :
    (compare a).events <+: (firstFailure compare (a :: rest)).events := by
  by_cases h : (compare a).value = .matched
  · rw [firstFailure_cons_of_matched h]
    exact List.prefix_append _ _
  · simp only [firstFailure_cons_of_ne h, List.prefix_rfl]

end

/-- A relation between runs that holds of two runs whenever it holds of their parts. -/
structure Compositional (R : Traced Verdict → Traced Verdict → Prop) : Prop where
  pure (v : Verdict) : R (.pure v) (.pure v)
  noting {x y : Traced Verdict} {e : Event} : e.isVisit = true → R x y → R (x.noting e) (y.noting e)
  firstFailure {α : Type} {compare compare' : α → Traced Verdict} {l : List α} :
    (∀ a ∈ l, R (compare a) (compare' a)) → R (firstFailure compare l) (firstFailure compare' l)

def Notes {α : Type} (P : Event → Prop) (x : Traced α) : Prop := ∀ e ∈ x.events, P e

theorem notes_firstFailure {α : Type} {P : Event → Prop} {compare : α → Traced Verdict} {l : List α}
    (h : ∀ a ∈ l, (compare a).Notes P) : (firstFailure compare l).Notes P := by
  induction l with
  | nil =>
    intro e he
    cases he
  | cons a l ih =>
    obtain ⟨ha, hl⟩ := List.forall_mem_cons.1 h
    by_cases hmatched : (compare a).value = .matched
    · rw [firstFailure_cons_of_matched hmatched]
      exact List.forall_mem_append.2 ⟨ha, ih hl⟩
    · rw [firstFailure_cons_of_ne hmatched]
      exact ha

theorem compositional_notes :
    Compositional fun x _ : Traced Verdict => x.Notes (·.isVisit = true) where
  pure v := by
    intro e he
    cases he
  noting he hx := List.forall_mem_cons.2 ⟨he, hx⟩
  firstFailure h := notes_firstFailure h

theorem compositional_eq : Compositional (Eq : Traced Verdict → Traced Verdict → Prop) where
  pure _ := rfl
  noting _ h := congrArg _ h
  firstFailure {α compare compare' l} h := by
    induction l with
    | nil => rfl
    | cons a l ih =>
      obtain ⟨ha, hl⟩ := List.forall_mem_cons.1 h
      rw [firstFailure, firstFailure, ha, ih hl]

end Traced

open Traced (Compositional)

namespace Compare

open Traced Correlation

section

variable {R : Traced Verdict → Traced Verdict → Prop} (hR : Compositional R) {as : List Node}
  {compare compare' : PairComparison as} {path : String}

include hR

theorem rel_compareAt {k : Keyed}
    (h : ∀ a ha, as[k.key.rank]? = some a →
      R (compare (path ++ k.key.segment) k.node a ha)
        (compare' (path ++ k.key.segment) k.node a ha)) :
    R (compareAt compare path k) (compareAt compare' path k) := by
  unfold compareAt
  split
  · exact hR.pure _
  next a ha => exact h a _ ha

theorem rel_compareIdentified {es : List Node} {texts : List String} {k : Keyed}
    {name value : String} (hk : k.key = .identity name value)
    (h : ∀ a ha, (texts.idxOf? value).bind (as[·]?) = some a →
      R (compare (path ++ k.key.segment) k.node a ha)
        (compare' (path ++ k.key.segment) k.node a ha)) :
    R (compareIdentified compare path es texts k) (compareIdentified compare' path es texts k) := by
  unfold compareIdentified
  dsimp only
  split
  · exact hR.pure _
  next _ value' hk' =>
    obtain ⟨-, rfl⟩ := Key.identity.inj (hk.symm.trans hk')
    split
    · exact hR.pure _
    next a ha => exact h a _ ha

theorem rel_compareArrays {es : List Node}
    (h : ∀ p e a ha, ElementCall path es as p e a → R (compare p e a ha) (compare' p e a ha)) :
    R (compareArrays path es as compare) (compareArrays path es as compare') := by
  unfold compareArrays
  refine hR.noting rfl ?_
  split
  · exact hR.pure _
  split
  · exact hR.pure _
  next hobjects =>
    have hkinds : ∀ n ∈ es, n.kind = .object := by simpa using hobjects
    split
    · exact hR.pure _
    next pairs hpairs =>
      rcases keys_cases hpairs with hindex | ⟨hne, name, hidentity⟩
      · rw [compareKeyed_index _ hindex, compareKeyed_index _ hindex]
        refine hR.firstFailure fun k hk => rel_compareAt hR fun a ha hat => ?_
        obtain ⟨i, hi⟩ := hindex k hk
        rw [hi] at hat
        exact h _ _ a ha (.position hkinds hpairs hk hi hat)
      · rw [compareKeyed_identity _ hne hidentity, compareKeyed_identity _ hne hidentity]
        split
        · exact hR.pure _
        next texts htexts =>
          refine hR.firstFailure fun k hk => ?_
          obtain ⟨value, hvalue⟩ := hidentity k hk
          refine rel_compareIdentified hR hvalue fun a ha hfirst => ?_
          have hwith := (first_eq_some_iff (forall₂_identityTexts htexts)).1 hfirst
          exact h _ _ a ha (.identity hkinds hpairs hk hvalue hwith)

end

/-- Of the configuration only numbers depend, and of what lies below only the nested comparisons. -/
theorem rel_body {R : Traced Verdict → Traced Verdict → Prop} (hR : Compositional R)
    {config config' : Config}
    (hnumber : ∀ path e a, R (.pure (number config path e a)) (.pure (number config' path e a)))
    {compare compare' : String → Node → Node → Traced Verdict} {path : String} {e a : Node}
    (h : ∀ p e' a', Call path e a p e' a' → R (compare p e' a') (compare' p e' a')) :
    R (body config compare path e a) (body config' compare' path e a) := by
  unfold body
  refine hR.noting rfl ?_
  split
  case h_3 => exact hnumber path e a
  case h_6 hakind =>
    split
    · exact hR.pure _
    next as has =>
      split
      next hekind =>
        split
        · exact hR.pure _
        next es hes =>
          exact rel_compareArrays hR fun p e' a' _ hcall =>
            h p e' a' (.element hakind has hekind hes hcall)
      · exact hR.pure _
      · exact hR.pure _
  case h_7 hakind =>
    split
    · exact hR.pure _
    next fs gs hboth =>
      refine hR.firstFailure fun field hfield => ?_
      split
      · exact hR.pure _
      next a' ha' => exact h _ _ a' (.field hakind hboth (Fields.get?_of_mem hfield) ha')
  all_goals exact hR.pure _

section

variable {compare compare' : String → Node → Node → Traced Verdict} {path : String}

theorem arraysBody_congr {es as : List Node}
    (h : ∀ p e a, ElementCall path es as p e a → compare p e a = compare' p e a) :
    arraysBody compare path es as = arraysBody compare' path es as :=
  rel_compareArrays compositional_eq fun p e a _ => h p e a

theorem body_congr {config : Config} {e a : Node}
    (h : ∀ p e' a', Call path e a p e' a' → compare p e' a' = compare' p e' a') :
    body config compare path e a = body config compare' path e a :=
  rel_body compositional_eq (fun _ _ _ => rfl) h

end

section

variable {config : Config} {path : String} {e a : Node}

theorem nodes_of_objects {fs gs : Fields} (hakind : a.kind = .object)
    (hboth : bothFields e a = .ok (fs, gs)) :
    nodes config path e a = Traced.noting (.visiting path e.kind .object)
      (firstFailure
        (fun field =>
          match gs.get? field.1 with
          | none => .pure (missing (path ++ "." ++ field.1) field.2)
          | some a' => nodes config (path ++ "." ++ field.1) field.2 a')
        fs.toList) := by
  rewrite [nodes_eq, body, hakind, hboth]
  rfl

theorem nodes_of_field {name : String} {e' a' : Node} {gs : Fields} (hakind : a.kind = .object)
    (hboth : bothFields e a = .ok (.ofList [(name, e')], gs)) (hname : gs.get? name = some a') :
    nodes config path e a = Traced.noting (.visiting path e.kind .object)
      (nodes config (path ++ "." ++ name) e' a') := by
  have hlist : (Fields.ofList [(name, e')]).toList = [(name, e')] := rfl
  rw [nodes_of_objects hakind hboth, hlist, firstFailure_singleton, hname]

theorem nodes_of_array {as : List Node} (hakind : a.kind = .array)
    (has : Document.elements a.raw = .ok as) :
    nodes config path e a = Traced.noting (.visiting path e.kind .array)
      (match e.kind with
      | .array =>
        match Document.elements e.raw with
        | .error error => .pure (.failed (byValue path e a) error)
        | .ok es => arrays config path es as
      | .string => .pure (arrayLength path e a as.length)
      | kind => .pure (.failed (byKind path e a) (.arrayAssertionType kind))) := by
  rewrite [nodes_eq, body, hakind, has]
  rfl

theorem nodes_of_string (hakind : a.kind = .string) :
    nodes config path e a =
      Traced.noting (.visiting path e.kind .string) (.pure (string path e a)) := by
  rw [nodes_eq, body, hakind]

end

section

variable {R : Traced Verdict → Traced Verdict → Prop} (hR : Compositional R)
  {config config' : Config}
  (hnumber : ∀ path e a, R (.pure (number config path e a)) (.pure (number config' path e a)))

include hR hnumber

theorem rel_nodes (path : String) (e a : Node) :
    R (nodes config path e a) (nodes config' path e a) := by
  -- by induction on the bytes of the actual node
  induction hlen : a.raw.length using Nat.strongRecOn generalizing path e a with
  | ind n ih =>
    subst hlen
    rw [nodes_eq config, nodes_eq config']
    exact rel_body hR hnumber fun p e' a' hcall => ih _ hcall.within.2 p e' a' rfl

theorem rel_documents (expected actual : Bytes) :
    R (documents config expected actual) (documents config' expected actual) := by
  unfold documents
  split
  · exact hR.pure _
  · exact rel_nodes hR hnumber _ _ _

end

theorem notes_documents (config : Config) (expected actual : Bytes) :
    (documents config expected actual).Notes (·.isVisit = true) :=
  @rel_documents _ compositional_notes config config (fun _ _ _ => compositional_notes.pure _)
    expected actual

end Compare

end DocMatch
