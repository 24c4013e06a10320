import DocMatch.Matcher.Basic
import DocMatch.Proofs.Sequence
import DocMatch.Proofs.Substitution.Occurrence
import Mathlib.Data.List.Induction

/-!
Replacing placeholders. The names of a text are listed by their first positions, and a text whose
names all have values becomes the same text with those values in the place of the placeholders, all
at once. Main statement: `replaceAll_simultaneous`.
-/

namespace DocMatch.Substitution

section

variable {β : Type} [DecidableEq β] {l : List (Nat × β)}

theorem pairwise_eraseDups (hl : l.Pairwise (·.1 < ·.1)) :
    (l.map Prod.snd).eraseDups.Pairwise fun a b => ∃ i, (i, a) ∈ l ∧ ∀ j, (j, b) ∈ l → i < j := by
  induction l using List.reverseRecOn with
  | nil => exact .nil
  | append_singleton l p ih =>
    obtain ⟨hl, -, hlast⟩ := List.pairwise_append.1 hl
    have hearlier : ∀ i a, (i, a) ∈ l → i < p.1 :=
      fun i a hi => hlast _ hi p (List.mem_singleton_self p)
    have hrest : (l.map Prod.snd).eraseDups.Pairwise
        fun a b => ∃ i, (i, a) ∈ l ++ [p] ∧ ∀ j, (j, b) ∈ l ++ [p] → i < j := by
      refine (ih hl).imp ?_
      rintro a b ⟨i, hi, hfirst⟩
      refine ⟨i, List.mem_append_left _ hi, fun j hj => ?_⟩
      rcases List.mem_append.1 hj with hj | hj
      · exact hfirst j hj
      · obtain rfl := List.mem_singleton.1 hj
        exact hearlier i a hi
    rw [List.map_append, List.map_singleton, List.eraseDups_append]
    by_cases hp : p.2 ∈ l.map Prod.snd
    · have hnil : [p.2].removeAll (l.map Prod.snd) = [] := by simpa [List.removeAll] using hp
      rw [hnil, List.eraseDups_nil, List.append_nil]
      exact hrest
    · have hself : [p.2].removeAll (l.map Prod.snd) = [p.2] := by simpa [List.removeAll] using hp
      rw [hself, List.eraseDups_cons, List.filter_nil, List.eraseDups_nil]
      refine List.pairwise_append.2 ⟨hrest, List.pairwise_singleton .., fun a ha b hb => ?_⟩
      obtain rfl := List.mem_singleton.1 hb
      obtain ⟨⟨i, a⟩, hi, rfl⟩ := List.mem_map.1 (List.mem_eraseDups.1 ha)
      refine ⟨i, List.mem_append_left _ hi, fun j hj => ?_⟩
      rcases List.mem_append.1 hj with hj | hj
      · exact absurd (List.mem_map_of_mem hj) hp
      · have hposition : j = p.1 := congrArg Prod.fst (List.mem_singleton.1 hj)
        exact hposition ▸ hearlier i a hi

theorem find?_eraseDups (p : β → Bool) (l : List β) : l.eraseDups.find? p = l.find? p := by
  induction l using List.reverseRecOn with
  | nil => rfl
  | append_singleton l a ih =>
    rw [List.eraseDups_append, List.find?_append, List.find?_append, ih]
    by_cases ha : a ∈ l
    · have hnil : [a].removeAll l = [] := by simpa [List.removeAll] using ha
      rw [hnil]
      cases hfind : l.find? p with
      | some b => rfl
      | none => simp [List.find?_eq_none.1 hfind a ha]
    · have hself : [a].removeAll l = [a] := by simpa [List.removeAll] using ha
      rw [hself, List.eraseDups_cons, List.filter_nil, List.eraseDups_nil]

omit [DecidableEq β] in
theorem find?_eq_some_iff_least (hl : l.Pairwise (·.1 < ·.1)) {p : Nat × β → Bool} {x : Nat × β} :
    l.find? p = some x ↔ x ∈ l ∧ p x = true ∧ ∀ y ∈ l, p y = true → x.1 ≤ y.1 := by
  induction l with
  | nil => simp
  | cons y l ih =>
    obtain ⟨hy, hl⟩ := List.pairwise_cons.1 hl
    by_cases hp : p y = true
    · rw [List.find?_cons_of_pos hp, Option.some.injEq]
      constructor
      · rintro rfl
        refine ⟨List.mem_cons_self .., hp, List.forall_mem_cons.2 ⟨fun _ => Nat.le_refl _, ?_⟩⟩
        exact fun z hz _ => Nat.le_of_lt (hy z hz)
      · rintro ⟨hx, -, hleast⟩
        rcases List.mem_cons.1 hx with rfl | hx
        · rfl
        · exact absurd (hleast y (List.mem_cons_self ..) hp) (Nat.not_le.2 (hy x hx))
    · rw [List.find?_cons_of_neg hp, ih hl]
      constructor
      · rintro ⟨hx, hpx, hleast⟩
        refine ⟨List.mem_cons_of_mem _ hx, hpx, List.forall_mem_cons.2 ⟨?_, hleast⟩⟩
        exact fun h => absurd h hp
      · rintro ⟨hx, hpx, hleast⟩
        have hne : x ≠ y := fun h => hp (h ▸ hpx)
        exact ⟨(List.mem_cons.1 hx).resolve_left hne, hpx, (List.forall_mem_cons.1 hleast).2⟩

end

/-- The names that occur in a text, once each, by their first positions. -/
structure ListsNames (s : Bytes) (names : List String) : Prop where
  nodup : names.Nodup
  mem_iff : ∀ name, name ∈ names ↔ ∃ i, Occurs s i name
  ordered : names.Pairwise fun a b => ∃ i, Occurs s i a ∧ ∀ j, Occurs s j b → i < j

/-- The first position of a name that has no value. -/
def FirstUnbound (bindings : Bindings) (s : Bytes) (i : Nat) (name : String) : Prop :=
  Occurs s i name ∧ bindings name = none ∧
    ∀ j other, Occurs s j other → bindings other = none → i ≤ j

/-- What stands in the place of the byte at position `i`. -/
inductive Becomes (bindings : Bindings) (s : Bytes) (i : Nat) : Bytes → Prop where
  /-- The value of a placeholder, where the placeholder begins. -/
  | value {name value : String} :
      Occurs s i name → bindings name = some value →
      Becomes bindings s i (Bytes.ofString value)
  /-- Nothing, for the other bytes of a placeholder. -/
  | inside {j : Nat} {name : String} :
      Occurs s j name → j < i → i < j + (spelled name).length → Becomes bindings s i []
  /-- The byte itself, where there is no placeholder. -/
  | other {b : UInt8} :
      (∀ j name, Occurs s j name → i < j ∨ j + (spelled name).length ≤ i) → s[i]? = some b →
      Becomes bindings s i [b]

/-- Byte by byte, in order, what the text becomes. -/
def Replaced (bindings : Bindings) (s out : Bytes) : Prop :=
  ∃ parts : List Bytes, parts.length = s.length ∧
    (∀ i part, parts[i]? = some part → Becomes bindings s i part) ∧ parts.flatten = out

variable {bindings : Bindings} {s : Bytes}

theorem occurs_iff_mem_placed {i : Nat} {name : String} :
    Occurs s i name ↔ (i, name) ∈ placed 0 (segments s) := by
  rw [mem_placed]
  simp

theorem listsNames_names (s : Bytes) : ListsNames s (names s) := by
  have hordered : (names s).Pairwise fun a b => ∃ i, Occurs s i a ∧ ∀ j, Occurs s j b → i < j := by
    rw [names, ← map_snd_placed 0]
    simpa only [occurs_iff_mem_placed] using pairwise_eraseDups (pairwise_placed 0 (segments s))
  refine ⟨hordered.imp ?_, fun name => ?_, hordered⟩
  · rintro a b ⟨i, hi, hfirst⟩ rfl
    exact Nat.lt_irrefl i (hfirst i hi)
  · rw [names, List.mem_eraseDups, ← map_snd_placed 0, List.mem_map]
    simp only [occurs_iff_mem_placed]
    constructor
    · rintro ⟨⟨i, name⟩, hi, rfl⟩
      exact ⟨i, hi⟩
    · rintro ⟨i, hi⟩
      exact ⟨_, hi, rfl⟩

theorem find?_names (p : String → Bool) :
    (names s).find? p = ((placed 0 (segments s)).find? (p ∘ Prod.snd)).map Prod.snd := by
  rw [names, find?_eraseDups, ← map_snd_placed 0, List.find?_map]

theorem find?_names_eq_some_iff {name : String} :
    ((names s).find? fun name => (bindings name).isNone) = some name ↔
      ∃ i, FirstUnbound bindings s i name := by
  rw [find?_names, Option.map_eq_some_iff]
  simp only [find?_eq_some_iff_least (pairwise_placed 0 (segments s)), Function.comp_apply,
    Option.isNone_iff_eq_none, Prod.exists, Prod.forall, ← occurs_iff_mem_placed]
  constructor
  · rintro ⟨i, _, h, rfl⟩
    exact ⟨i, h⟩
  · rintro ⟨i, h⟩
    exact ⟨i, name, h, rfl⟩

theorem find?_names_eq_none_iff :
    ((names s).find? fun name => (bindings name).isNone) = none ↔
      ∀ i name, Occurs s i name → (bindings name).isSome = true := by
  simp only [List.find?_eq_none, (listsNames_names s).mem_iff]
  constructor
  · intro h i name hi
    simpa [Option.isSome_iff_ne_none] using h name ⟨i, hi⟩
  · rintro h name ⟨i, hi⟩
    simpa [Option.isSome_iff_ne_none] using h i name hi

theorem replaceAll_eq_error_iff {error : MatchError} :
    replaceAll bindings s = .error error ↔
      ∃ i name, error = .undefinedVariable name ∧ FirstUnbound bindings s i name := by
  unfold replaceAll
  cases hfind : (names s).find? fun name => (bindings name).isNone with
  | some name =>
    obtain ⟨i, hi⟩ := find?_names_eq_some_iff.1 hfind
    simp only [Except.error.injEq]
    constructor
    · rintro rfl
      exact ⟨i, name, rfl, hi⟩
    · rintro ⟨j, other, rfl, hj⟩
      have hother := find?_names_eq_some_iff.2 ⟨j, hj⟩
      rw [Option.some.inj (hfind.symm.trans hother)]
  | none =>
    refine iff_of_false nofun ?_
    rintro ⟨i, name, -, hi⟩
    have hname := find?_names_eq_some_iff.2 ⟨i, hi⟩
    cases hfind.symm.trans hname

def Segment.parts (bindings : Bindings) : Segment → List Bytes
  | .literal b => [[b]]
  | .placeholder name =>
    Segment.fill bindings (.placeholder name) :: List.replicate ((spelled name).length - 1) []

theorem flatten_parts (l : List Segment) :
    (l.flatMap (Segment.parts bindings)).flatten = l.flatMap (Segment.fill bindings) := by
  have hpart (segment : Segment) : (segment.parts bindings).flatten = segment.fill bindings := by
    cases segment with
    | literal b => rfl
    | placeholder name => simp [Segment.parts]
  induction l with
  | nil => rfl
  | cons segment l ih =>
    rw [List.flatMap_cons, List.flatten_append, hpart, ih, List.flatMap_cons]

theorem Occurs.not_inside {i j : Nat} {name other : String} (h : Occurs s i name)
    (h' : Occurs s j other) (hj : j < i) : ¬ i < j + (spelled other).length :=
  Nat.not_lt.2 (h'.disjoint h hj)

theorem spelled_covers (i : Nat) (name : String) :
    ¬ (i < i ∨ i + (spelled name).length ≤ i) := by
  have := length_spelled name
  omega

theorem Becomes.unique {i : Nat} {x y : Bytes} (hx : Becomes bindings s i x)
    (hy : Becomes bindings s i y) : x = y := by
  cases hx with
  | value h hvalue =>
    cases hy with
    | value h' hvalue' =>
      obtain rfl := h.unique h'
      rw [Option.some.inj (hvalue.symm.trans hvalue')]
    | inside h' hlt hin => exact absurd hin (h.not_inside h' hlt)
    | other hother _ => exact absurd (hother i _ h) (spelled_covers _ _)
  | inside h hlt hin =>
    cases hy with
    | value h' _ => exact absurd hin (h'.not_inside h hlt)
    | inside _ _ _ => rfl
    | other hother _ =>
      have := hother _ _ h
      omega
  | other hother hb =>
    cases hy with
    | value h' _ => exact absurd (hother i _ h') (spelled_covers _ _)
    | inside h' hlt hin =>
      have := hother _ _ h'
      omega
    | other _ hb' => rw [Option.some.inj (hb.symm.trans hb')]

theorem Becomes.isSome {i : Nat} {name : String} {x : Bytes} (hx : Becomes bindings s i x)
    (h : Occurs s i name) : (bindings name).isSome = true := by
  cases hx with
  | value h' hvalue =>
    obtain rfl := h.unique h'
    rw [hvalue, Option.isSome_some]
  | inside h' hlt hin => exact absurd hin (h.not_inside h' hlt)
  | other hother _ => exact absurd (hother i _ h) (spelled_covers _ _)

/-- Bytes in front change nothing if no placeholder reaches over them. -/
theorem Becomes.append {x part : Bytes} {i : Nat} (h : Becomes bindings s i part)
    (hsplit : ∀ j name, Occurs (x ++ s) j name →
      j + (spelled name).length ≤ x.length ∨ ∃ k, j = x.length + k ∧ Occurs s k name) :
    Becomes bindings (x ++ s) (x.length + i) part := by
  cases h with
  | value h hvalue => exact .value ((occurs_append ..).2 h) hvalue
  | inside h hlt hin => exact .inside ((occurs_append ..).2 h) (by omega) (by omega)
  | other hother hb =>
    refine .other (fun j name hj => ?_)
      (by rwa [List.getElem?_append_right (Nat.le_add_right ..), Nat.add_sub_cancel_left])
    rcases hsplit j name hj with hle | ⟨k, rfl, hk⟩
    · omega
    · have := hother k name hk
      omega

theorem length_parts_placeholder (bindings : Bindings) (name : String) :
    (Segment.parts bindings (.placeholder name)).length = (spelled name).length := by
  have := length_spelled name
  simp only [Segment.parts, List.length_cons, List.length_replicate]
  omega

theorem Occurs.becomes_parts {name : String} (h : Occurs s 0 name)
    (hbound : (bindings name).isSome = true) {i : Nat} {part : Bytes}
    (hi : (Segment.parts bindings (.placeholder name))[i]? = some part) :
    Becomes bindings s i part := by
  obtain ⟨value, hvalue⟩ := Option.isSome_iff_exists.1 hbound
  have hlt := (List.getElem?_eq_some_iff.1 hi).1
  rw [length_parts_placeholder] at hlt
  cases i with
  | zero =>
    obtain rfl : Segment.fill bindings (.placeholder name) = part := by
      simpa [Segment.parts] using hi
    rw [Segment.fill, hvalue]
    exact .value h hvalue
  | succ i =>
    rw [Segment.parts, List.getElem?_cons_succ] at hi
    obtain rfl := (List.mem_replicate.1 (List.mem_of_getElem? hi)).2
    exact .inside h (Nat.succ_pos i) (by simpa using hlt)

theorem becomes_parts (hbound : ∀ i name, Occurs s i name → (bindings name).isSome = true) :
    ((segments s).flatMap (Segment.parts bindings)).length = s.length ∧
      ∀ i part, ((segments s).flatMap (Segment.parts bindings))[i]? = some part →
        Becomes bindings s i part := by
  induction s using segments_induction with
  | nil => simp [segments_nil]
  | placeholder name rest hname ih =>
    have hoccurs (i : Nat) (other : String) : Occurs (spelled name ++ rest) i other ↔
        i = 0 ∧ other = name ∨ ∃ j, i = (spelled name).length + j ∧ Occurs rest j other :=
      occurs_spelled_append hname
    have hfirst := (hoccurs 0 name).2 (.inl ⟨rfl, rfl⟩)
    obtain ⟨hlength, hrest⟩ := ih fun i other hi =>
      hbound _ other ((hoccurs _ other).2 (.inr ⟨i, rfl, hi⟩))
    have hparts := length_parts_placeholder bindings name
    rw [segments_spelled_append hname, List.flatMap_cons]
    refine ⟨by rw [List.length_append, List.length_append, hparts, hlength], fun i part hi => ?_⟩
    by_cases hlt : i < (spelled name).length
    · rw [List.getElem?_append_left (hparts ▸ hlt)] at hi
      exact hfirst.becomes_parts (hbound 0 name hfirst) hi
    · obtain ⟨j, rfl⟩ := Nat.exists_eq_add_of_le (Nat.not_lt.1 hlt)
      rw [← hparts, List.getElem?_append_right (Nat.le_add_right ..), Nat.add_sub_cancel_left] at hi
      refine (hrest j part hi).append fun k other hk => ?_
      rcases (hoccurs k other).1 hk with ⟨rfl, rfl⟩ | hk
      · exact .inl (Nat.le_of_eq (Nat.zero_add _))
      · exact .inr hk
  | literal b t h ih =>
    have hoccurs (i : Nat) (name : String) : Occurs (b :: t) i name ↔
        ∃ j, i = j + 1 ∧ Occurs t j name := occurs_cons_of_none h
    obtain ⟨hlength, hrest⟩ := ih fun i name hi => hbound _ name ((hoccurs _ name).2 ⟨i, rfl, hi⟩)
    rw [segments_of_literal h, List.flatMap_cons]
    refine ⟨by simp [Segment.parts, hlength], fun i part hi => ?_⟩
    cases i with
    | zero =>
      obtain rfl : [b] = part := by simpa [Segment.parts] using hi
      refine .other (fun j name hj => ?_) rfl
      obtain ⟨k, rfl, -⟩ := (hoccurs j name).1 hj
      exact .inl (Nat.succ_pos k)
    | succ i =>
      have := (hrest i part hi).append (x := [b]) fun k name hk => by
        obtain ⟨j, rfl, hj⟩ := (hoccurs k name).1 hk
        exact .inr ⟨j, Nat.add_comm .., hj⟩
      rwa [List.length_singleton, Nat.add_comm, List.singleton_append] at this

theorem Replaced.unique {out out' : Bytes} (h : Replaced bindings s out)
    (h' : Replaced bindings s out') : out = out' := by
  obtain ⟨parts, hlength, hparts, rfl⟩ := h
  obtain ⟨parts', hlength', hparts', rfl⟩ := h'
  congr 1
  refine List.ext_getElem (hlength.trans hlength'.symm) fun i hi hi' => ?_
  exact (hparts i _ (List.getElem?_eq_getElem hi)).unique
    (hparts' i _ (List.getElem?_eq_getElem hi'))

theorem replaceAll_eq_ok {out : Bytes} (h : replaceAll bindings s = .ok out) :
    Replaced bindings s out := by
  unfold replaceAll at h
  split at h
  · cases h
  next hfind =>
    obtain ⟨hlength, hparts⟩ := becomes_parts (find?_names_eq_none_iff.1 hfind)
    exact ⟨_, hlength, hparts, (flatten_parts _).trans (Except.ok.inj h)⟩

theorem exists_replaceAll_iff :
    (∃ out, replaceAll bindings s = .ok out) ↔
      ∀ i name, Occurs s i name → (bindings name).isSome = true := by
  rw [← find?_names_eq_none_iff]
  unfold replaceAll
  cases (names s).find? fun name => (bindings name).isNone with
  | some name => simp
  | none => simp

theorem replaceAll_eq_ok_iff {out : Bytes} :
    replaceAll bindings s = .ok out ↔ Replaced bindings s out := by
  refine ⟨replaceAll_eq_ok, fun h => ?_⟩
  have hbound : ∀ i name, Occurs s i name → (bindings name).isSome = true := by
    intro i name hi
    obtain ⟨parts, hlength, hparts, -⟩ := h
    have hlt : i < parts.length := by
      have hle := hi.length_le
      rw [length_spelled] at hle
      omega
    exact (hparts i _ (List.getElem?_eq_getElem hlt)).isSome hi
  obtain ⟨out', hout'⟩ := exists_replaceAll_iff.2 hbound
  rw [hout', h.unique (replaceAll_eq_ok hout')]

section

variable {bindings' : Bindings}
  (hsame : ∀ i name, Occurs s i name → bindings name = bindings' name)

include hsame

theorem Becomes.congr {i : Nat} {part : Bytes} (h : Becomes bindings s i part) :
    Becomes bindings' s i part := by
  cases h with
  | value h hvalue => exact .value h (hsame _ _ h ▸ hvalue)
  | inside h hlt hin => exact .inside h hlt hin
  | other hother hb => exact .other hother hb

theorem FirstUnbound.congr {i : Nat} {name : String} (h : FirstUnbound bindings s i name) :
    FirstUnbound bindings' s i name := by
  obtain ⟨hi, hnone, hleast⟩ := h
  refine ⟨hi, hsame _ _ hi ▸ hnone, fun j other hj hother => ?_⟩
  exact hleast j other hj ((hsame _ _ hj).trans hother)

theorem replaceAll_congr : replaceAll bindings' s = replaceAll bindings s := by
  cases h : replaceAll bindings s with
  | ok out =>
    obtain ⟨parts, hlength, hparts, hout⟩ := replaceAll_eq_ok_iff.1 h
    exact replaceAll_eq_ok_iff.2 ⟨parts, hlength, fun i part hi => (hparts i part hi).congr hsame,
      hout⟩
  | error error =>
    obtain ⟨i, name, rfl, hi⟩ := replaceAll_eq_error_iff.1 h
    exact replaceAll_eq_error_iff.2 ⟨i, name, rfl, hi.congr hsame⟩

end

theorem ofDocument_eq_ok_iff {out : Bytes} :
    (∃ m, (Matcher.ofDocument bindings s).value = .ok m ∧ m.expected = out) ↔
      replaceAll bindings s = .ok out := by
  simp only [Matcher.ofDocument, Traced.map, run, Traced.value_noting, map_eq_ok_iff]
  cases replaceAll bindings s with
  | error error => simp
  | ok text => simp [Matcher.ofText]

/-- Placeholders are replaced all at once, exactly where they occur. -/
theorem replaceAll_simultaneous (bindings : Bindings) (s : Bytes) :
    (∀ i j name other, Occurs s i name → Occurs s j other →
      i = j ∧ name = other ∨ i + (spelled name).length ≤ j ∨ j + (spelled other).length ≤ i) ∧
    ListsNames s (names s) ∧
    ((∃ out, replaceAll bindings s = .ok out) ↔
      ∀ i name, Occurs s i name → (bindings name).isSome = true) ∧
    (∀ error, replaceAll bindings s = .error error ↔
      ∃ i name, error = .undefinedVariable name ∧ FirstUnbound bindings s i name) ∧
    (∀ out, replaceAll bindings s = .ok out ↔ Replaced bindings s out) ∧
    (∀ bindings' : Bindings, (∀ i name, Occurs s i name → bindings name = bindings' name) →
      replaceAll bindings' s = replaceAll bindings s) ∧
    ∀ out, (∃ m, (Matcher.ofDocument bindings s).value = .ok m ∧ m.expected = out) ↔
      replaceAll bindings s = .ok out := by
  refine ⟨fun i j name other hi hj => ?_, listsNames_names s, exists_replaceAll_iff,
    fun _ => replaceAll_eq_error_iff, fun _ => replaceAll_eq_ok_iff,
    fun _ hsame => replaceAll_congr hsame, fun _ => ofDocument_eq_ok_iff⟩
  rcases Nat.lt_trichotomy i j with hlt | rfl | hlt
  · exact .inr (.inl (hi.disjoint hj hlt))
  · exact .inl ⟨rfl, hi.unique hj⟩
  · exact .inr (.inr (hj.disjoint hi hlt))

end DocMatch.Substitution
