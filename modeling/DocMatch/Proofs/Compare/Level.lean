import DocMatch.Proofs.Compare.Events

/-!
One level of a comparison. The verdict on two nodes is a function of the verdicts on the pairs one
level below, whatever was noted on the way. Main statements: `value_nodes`, from which everything
about verdicts follows by induction on the bytes of the actual node, and `value_nodes_eq_levels`, by
which the verdict on given nodes can be computed.
-/

namespace DocMatch

namespace Verdict

def first : List Verdict → Verdict
  | [] => matched
  | v :: rest => if v = matched then first rest else v

theorem first_mem {vs : List Verdict} (h : first vs ≠ matched) : first vs ∈ vs := by
  induction vs with
  | nil => exact absurd rfl h
  | cons v rest ih =>
    rw [first] at h ⊢
    split at h
    next hv =>
      rw [if_pos hv]
      exact List.mem_cons_of_mem _ (ih h)
    next hv =>
      rw [if_neg hv]
      exact List.mem_cons_self ..

theorem first_append (vs ws : List Verdict) :
    first (vs ++ ws) = if first vs = matched then first ws else first vs := by
  induction vs with
  | nil => rfl
  | cons v vs ih =>
    rw [List.cons_append, first, first, ih]
    by_cases hv : v = matched
    · rw [if_pos hv, if_pos hv]
    · rw [if_neg hv, if_neg hv, if_neg hv]

theorem first_of_prefix {vs ws : List Verdict} (h : vs <+: ws) (hvs : first vs ≠ matched) :
    first ws = first vs := by
  obtain ⟨rest, rfl⟩ := h
  rw [first_append, if_neg hvs]

theorem first_eq_matched_iff {vs : List Verdict} : first vs = matched ↔ ∀ v ∈ vs, v = matched := by
  induction vs with
  | nil => simp [first]
  | cons v vs ih =>
    rw [first, List.forall_mem_cons, ← ih]
    by_cases hv : v = matched
    · rw [if_pos hv, and_iff_right hv]
    · rw [if_neg hv]
      exact iff_of_false hv fun h => hv h.1

/-- Either nothing fails, or the verdict is that of the first that does. -/
theorem first_cases (vs : List Verdict) :
    (first vs = matched ∧ ∀ v ∈ vs, v = matched) ∨
      ∃ before v after, vs = before ++ v :: after ∧ (∀ w ∈ before, w = matched) ∧ v ≠ matched ∧
        first vs = v := by
  induction vs with
  | nil => exact .inl ⟨rfl, by simp⟩
  | cons v vs ih =>
    rw [first, List.forall_mem_cons]
    by_cases hv : v = matched
    · rw [if_pos hv]
      rcases ih with ⟨hfirst, hall⟩ | ⟨before, w, after, rfl, hbefore, hw, hfirst⟩
      · exact .inl ⟨hfirst, hv, hall⟩
      · exact .inr ⟨v :: before, w, after, rfl, List.forall_mem_cons.2 ⟨hv, hbefore⟩, hw, hfirst⟩
    · rw [if_neg hv]
      exact .inr ⟨[], v, vs, rfl, by simp, hv, rfl⟩

theorem first_map_cases {α : Type} (l : List α) (f : α → Verdict) :
    (first (l.map f) = matched ∧ ∀ a ∈ l, f a = matched) ∨
      ∃ before a after, l = before ++ a :: after ∧ (∀ b ∈ before, f b = matched) ∧
        f a ≠ matched ∧ first (l.map f) = f a := by
  rcases first_cases (l.map f) with ⟨hfirst, hall⟩ | ⟨before, v, after, hsplit, hbefore, hv, hfirst⟩
  · exact .inl ⟨hfirst, List.forall_mem_map.1 hall⟩
  · obtain ⟨front, rest, rfl, rfl, hrest⟩ := List.map_eq_append_iff.1 hsplit
    obtain ⟨a, back, rfl, rfl, rfl⟩ := List.map_eq_cons_iff.1 hrest
    exact .inr ⟨front, a, back, rfl, List.forall_mem_map.1 hbefore, hv, hfirst⟩

/-- The first verdicts that are no match are related if the verdicts are and a match is only related
to a match. -/
theorem rel_first {R : Verdict → Verdict → Prop} (hmatched : R matched matched)
    (hiff : ∀ v v', R v v' → (v = matched ↔ v' = matched)) {vs vs' : List Verdict}
    (h : List.Forall₂ R vs vs') : R (first vs) (first vs') := by
  induction h with
  | nil => exact hmatched
  | @cons v v' vs vs' hv _ ih =>
    rw [first, first]
    by_cases hvmatched : v = matched
    · rw [if_pos hvmatched, if_pos ((hiff v v' hv).1 hvmatched)]
      exact ih
    · rw [if_neg hvmatched, if_neg (mt (hiff v v' hv).2 hvmatched)]
      exact hv

theorem rel_first_map {R : Verdict → Verdict → Prop} (hmatched : R matched matched)
    (hiff : ∀ v v', R v v' → (v = matched ↔ v' = matched)) {α : Type} {l : List α}
    {f g : α → Verdict} (h : ∀ x ∈ l, R (f x) (g x)) : R (first (l.map f)) (first (l.map g)) := by
  refine rel_first hmatched hiff ?_
  rw [List.forall₂_map_left_iff, List.forall₂_map_right_iff]
  exact List.forall₂_same.2 h

end Verdict

theorem Traced.value_firstFailure {α : Type} (compare : α → Traced Verdict) (l : List α) :
    (firstFailure compare l).value = .first (l.map fun a => (compare a).value) := by
  induction l with
  | nil => rfl
  | cons a l ih => rw [value_firstFailure_cons, List.map_cons, Verdict.first, ih]

namespace Compare

open Correlation

section

variable (compare : String → Node → Node → Verdict) (path : String)

def atPosition (actual : List Node) (k : Keyed) : Verdict :=
  match actual[k.key.rank]? with
  | none => .matched
  | some a => compare (path ++ k.key.segment) k.node a

def atIdentity (expected actual : List Node) (texts : List String) (k : Keyed) : Verdict :=
  match k.key with
  | .index _ => .matched
  | .identity _ value =>
    match (texts.idxOf? value).bind (actual[·]?) with
    | none => .mismatch (listing (path ++ k.key.segment) expected actual)
    | some a => compare (path ++ k.key.segment) k.node a

def keyedLevel (expected actual : List Node) (pairs : List Keyed) : Verdict :=
  match pairs.head?.map Keyed.key with
  | some (.identity name _) =>
    match identityTexts name 0 actual with
    | .error e => .failed (listing path expected actual) e
    | .ok texts => .first (pairs.map (atIdentity compare path expected actual texts))
  | _ => .first (pairs.map (atPosition compare path actual))

theorem keyedLevel_index {expected actual : List Node} {pairs : List Keyed}
    (h : ∀ k ∈ pairs, ∃ i, k.key = .index i) :
    keyedLevel compare path expected actual pairs =
      .first (pairs.map (atPosition compare path actual)) := by
  cases pairs with
  | nil => rfl
  | cons k pairs =>
    obtain ⟨i, hi⟩ := h k (List.mem_cons_self ..)
    simp only [keyedLevel, List.head?_cons, Option.map_some, hi]

theorem keyedLevel_identity {name : String} {expected actual : List Node} {pairs : List Keyed}
    (hne : pairs ≠ []) (h : ∀ k ∈ pairs, ∃ value, k.key = .identity name value) :
    keyedLevel compare path expected actual pairs =
      match identityTexts name 0 actual with
      | .error e => .failed (listing path expected actual) e
      | .ok texts => .first (pairs.map (atIdentity compare path expected actual texts)) := by
  cases pairs with
  | nil => exact absurd rfl hne
  | cons k pairs =>
    obtain ⟨value, hk⟩ := h k (List.mem_cons_self ..)
    simp only [keyedLevel, List.head?_cons, Option.map_some, hk]

def arrayLevel (expected actual : List Node) : Verdict :=
  if expected.all Node.isPrimitive then comparePrimitives path expected actual
  else if !expected.all (·.kind = .object) then .failed (listing path expected actual) .mixedArray
  else
    match keyed expected with
    | .error e => .failed (listing path expected actual) e
    | .ok pairs => keyedLevel compare path expected actual pairs

def atField (actual : Fields) (field : Field) : Verdict :=
  match actual.get? field.1 with
  | none => missing (path ++ "." ++ field.1) field.2
  | some a => compare (path ++ "." ++ field.1) field.2 a

/-- The verdict on two nodes by the verdicts on the pairs below them. -/
def level (config : Config) (expected actual : Node) : Verdict :=
  match actual.kind with
  | .absent => wrongKind path expected actual
  | .string => string path expected actual
  | .number => number config path expected actual
  | .boolean => boolean path expected actual
  | .null => null path expected actual
  | .array =>
    match Document.elements actual.raw with
    | .error e => .failed (byValue path expected actual) e
    | .ok actualElements =>
      match expected.kind with
      | .array =>
        match Document.elements expected.raw with
        | .error e => .failed (byValue path expected actual) e
        | .ok expectedElements => arrayLevel compare path expectedElements actualElements
      | .string => arrayLength path expected actual actualElements.length
      | kind => .failed (byKind path expected actual) (.arrayAssertionType kind)
  | .object =>
    match bothFields expected actual with
    | .error e => .failed (byValue path expected actual) e
    | .ok (ofExpected, ofActual) => .first (ofExpected.toList.map (atField compare path ofActual))

end

section

variable {c : String → Node → Node → Verdict} {path : String} {es as : List Node} {k : Keyed}

theorem atPosition_of_none {i : Nat} (hk : k.key = .index i) (h : as[i]? = none) :
    atPosition c path as k = .matched := by
  simp only [atPosition, hk, Key.rank, h]

theorem atPosition_of_some {i : Nat} (hk : k.key = .index i) {a : Node} (h : as[i]? = some a) :
    atPosition c path as k = c (path ++ ("[" ++ toString i ++ "]")) k.node a := by
  simp only [atPosition, hk, Key.rank, h, Key.segment]

variable {name value : String} {texts : List String}
  (htexts : List.Forall₂ (IdentifiedBy name) as texts) (hk : k.key = .identity name value)

include htexts hk

theorem atIdentity_of_firstWith {a : Node} (ha : FirstWith name value as a) :
    atIdentity c path es as texts k = c (path ++ ("." ++ name ++ "=" ++ value)) k.node a := by
  simp only [atIdentity, hk, (first_eq_some_iff htexts).2 ha, Key.segment]

theorem atIdentity_of_missing (hno : ∀ m ∈ as, ¬ IdentifiedBy name m value) :
    atIdentity c path es as texts k =
      .mismatch (listing (path ++ ("." ++ name ++ "=" ++ value)) es as) := by
  simp only [atIdentity, hk, (first_eq_none_iff htexts).2 hno, Key.segment]

end

theorem value_compareAt {actual : List Node} (compare : String → Node → Node → Traced Verdict)
    (path : String) (k : Keyed) :
    (@compareAt actual (fun p e a _ => compare p e a) path k).value =
      atPosition (fun p e a => (compare p e a).value) path actual k := by
  unfold compareAt atPosition
  split
  next h => simp only [h, Traced.pure]
  next a h => simp only [h]

theorem value_compareIdentified {actual : List Node}
    (compare : String → Node → Node → Traced Verdict) (path : String) (expected : List Node)
    (texts : List String) (k : Keyed) :
    (@compareIdentified actual (fun p e a _ => compare p e a) path expected texts k).value =
      atIdentity (fun p e a => (compare p e a).value) path expected actual texts k := by
  unfold compareIdentified atIdentity
  cases k.key with
  | index position => rfl
  | identity name value =>
    dsimp only
    split
    next h => simp only [h, Traced.pure]
    next a h => simp only [h]

theorem value_compareArrays (compare : String → Node → Node → Traced Verdict) (path : String)
    (expected actual : List Node) :
    (compareArrays path expected actual fun p e a _ => compare p e a).value =
      arrayLevel (fun p e a => (compare p e a).value) path expected actual := by
  rw [compareArrays, Traced.value_noting, arrayLevel]
  split
  · rfl
  split
  · rfl
  cases keyed expected with
  | error e => rfl
  | ok pairs =>
    dsimp only
    unfold compareKeyed keyedLevel
    cases pairs.head?.map Keyed.key with
    | none => simp only [Traced.value_firstFailure, value_compareAt]
    | some key =>
      cases key with
      | index position => simp only [Traced.value_firstFailure, value_compareAt]
      | identity name value =>
        dsimp only
        cases identityTexts name 0 actual with
        | error e => rfl
        | ok texts => simp only [Traced.value_firstFailure, value_compareIdentified]

theorem value_body (config : Config) (compare : String → Node → Node → Traced Verdict)
    (path : String) (e a : Node) :
    (body config compare path e a).value =
      level (fun p e' a' => (compare p e' a').value) path config e a := by
  rw [body, Traced.value_noting, level]
  cases a.kind with
  | array =>
    dsimp only
    cases Document.elements a.raw with
    | error error => rfl
    | ok as =>
      cases e.kind with
      | array =>
        cases Document.elements e.raw with
        | error error => rfl
        | ok es => exact value_compareArrays compare path es as
      | _ => rfl
  | object =>
    dsimp only
    cases bothFields e a with
    | error error => rfl
    | ok both =>
      dsimp only
      rw [Traced.value_firstFailure]
      congr 2
      funext field
      unfold atField
      cases both.2.get? field.1 with
      | none => rfl
      | some a' => rfl
  | _ => rfl

theorem value_nodes (config : Config) (path : String) (expected actual : Node) :
    (nodes config path expected actual).value =
      level (fun p e a => (nodes config p e a).value) path config expected actual := by
  rw [nodes_eq, value_body]

theorem bothFields_eq_ok {e a : Node} {fs gs : Fields}
    (hechecked : Document.checkObject e.raw = .ok ())
    (hachecked : Document.checkObject a.raw = .ok ()) (hfs : Document.fields e.raw = .ok fs)
    (hgs : Document.fields a.raw = .ok gs) : bothFields e a = .ok (fs, gs) := by
  simp only [bothFields, hechecked, hachecked, hfs, hgs, bind, Except.bind]
  rfl

section

variable {c : String → Node → Node → Verdict} {path : String} {config : Config} {e a : Node}

theorem number_of_numberValue {x target : Binary64} (hekind : e.kind = .number)
    (hx : a.numberValue = .ok x) (htarget : e.numberValue = .ok target) :
    number config path e a =
      .ofTest (byValue path e a) (.ok (NumberTest.within x target config.tolerance)) := by
  simp only [number, hx, hekind, htarget, bind, Except.bind, pure, Except.pure, NumberTest.holds]

theorem level_of_objects (hakind : a.kind = .object) {fs gs : Fields}
    (h : bothFields e a = .ok (fs, gs)) :
    level c path config e a = .first (fs.toList.map (atField c path gs)) := by
  simp only [level, hakind, h]

theorem level_of_arrays {es as : List Node} (hekind : e.kind = .array)
    (hes : Document.elements e.raw = .ok es) (hakind : a.kind = .array)
    (has : Document.elements a.raw = .ok as) :
    level c path config e a = arrayLevel c path es as := by
  simp only [level, hakind, has, hekind, hes]

theorem all_isPrimitive_of_objects {es : List Node} (hne : es ≠ [])
    (hobjects : ∀ n ∈ es, n.kind = .object) : es.all Node.isPrimitive = false := by
  obtain ⟨n, hn⟩ := List.exists_mem_of_ne_nil es hne
  refine List.all_eq_false.2 ⟨n, hn, ?_⟩
  simp [Node.isPrimitive, Kind.isPrimitive, hobjects n hn]

theorem arrayLevel_of_keyed {es as : List Node} {pairs : List Keyed} (hne : es ≠ [])
    (hobjects : ∀ n ∈ es, n.kind = .object) (hpairs : keyed es = .ok pairs) :
    arrayLevel c path es as = keyedLevel c path es as pairs := by
  have hall : es.all (·.kind = .object) = true := by simpa using hobjects
  simp [arrayLevel, all_isPrimitive_of_objects hne hobjects, hall, hpairs]

end

/-- One level of a comparison goes on only to actual nodes with fewer bytes. -/
theorem level_congr {c c' : String → Node → Node → Verdict} {path : String} {config : Config}
    {e a : Node} (h : ∀ p e' a', a'.raw.length < a.raw.length → c p e' a' = c' p e' a') :
    level c path config e a = level c' path config e a := by
  have hbody : body config (fun p e' a' => .pure (c p e' a')) path e a =
      body config (fun p e' a' => .pure (c' p e' a')) path e a :=
    body_congr fun p e' a' hcall => congrArg Traced.pure (h p e' a' hcall.within.2)
  have hvalue := congrArg Traced.value hbody
  rwa [value_body, value_body] at hvalue

def levels (config : Config) : Nat → String → Node → Node → Verdict
  | 0, _, _, _ => .matched
  | depth + 1, path, expected, actual => level (levels config depth) path config expected actual

/-- No comparison goes deeper than the actual node has bytes. -/
theorem value_nodes_eq_levels (config : Config) {depth : Nat} {path : String} {e a : Node}
    (h : a.raw.length < depth) : (nodes config path e a).value = levels config depth path e a := by
  induction depth generalizing path e a with
  | zero => exact absurd h (Nat.not_lt_zero _)
  | succ depth ih =>
    rw [value_nodes, levels]
    exact level_congr fun p e' a' hlt => ih (Nat.lt_of_lt_of_le hlt (Nat.le_of_lt_succ h))

theorem objectRoot_of_root {data : Bytes} {n : Node} (h : Document.root data = .ok n) :
    objectRoot data =
      if n.kind = .object then .ok n else .error (.invalidDocument (.rootNotObject n.kind)) := by
  simp only [objectRoot, h, bind, Except.bind]
  by_cases hkind : n.kind = .object
  · rw [if_neg (not_not_intro hkind), if_pos hkind]
    rfl
  · rw [if_pos hkind, if_neg hkind]
    rfl

theorem objectRoot_sound {data : Bytes} {n : Node} (h : objectRoot data = .ok n) :
    Document.root data = .ok n ∧ n.kind = .object := by
  cases hroot : Document.root data with
  | error error => simp [objectRoot, hroot, bind, Except.bind] at h
  | ok m =>
    rw [objectRoot_of_root hroot] at h
    split at h
    next hkind =>
      obtain rfl : m = n := Except.ok.inj h
      exact ⟨rfl, hkind⟩
    · cases h

section

variable {config : Config} {expected actual : Bytes}

theorem documents_of_objectRoot {e a : Node} (he : objectRoot expected = .ok e)
    (ha : objectRoot actual = .ok a) :
    documents config expected actual = nodes config "" e a := by
  simp only [documents, he, ha, bind, Except.bind]
  rfl

theorem value_documents_of_expected {error : MatchError} (h : objectRoot expected = .error error) :
    (documents config expected actual).value =
      .failed ⟨"", Utf8.lossy expected, Utf8.lossy actual⟩ error := by
  simp only [documents, h, bind, Except.bind]
  rfl

theorem value_documents_of_actual {e : Node} {error : MatchError}
    (he : objectRoot expected = .ok e) (h : objectRoot actual = .error error) :
    (documents config expected actual).value =
      .failed ⟨"", Utf8.lossy expected, Utf8.lossy actual⟩ error := by
  simp only [documents, he, h, bind, Except.bind]
  rfl

end

end Compare

end DocMatch
