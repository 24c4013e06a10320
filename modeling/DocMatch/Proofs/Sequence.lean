import Mathlib.Data.List.Forall2

/-!
Things one after another. For steps that may fail, what it takes for all of them to succeed and
which of them an error comes from; for a run of elements, where it ends; for lists related element
by element, what each of them stands for in the other; for pairs, which of those with one name is
the last.
-/

namespace DocMatch

theorem span_append {α : Type} {p : α → Bool} {w t : List α} (hw : ∀ a ∈ w, p a = true)
    (ht : ∀ a ∈ t.head?, p a = false) :
    (w ++ t).takeWhile p = w ∧ (w ++ t).dropWhile p = t := by
  rw [List.takeWhile_append_of_pos hw, List.dropWhile_append_of_pos hw]
  cases t with
  | nil => simp
  | cons a t => simp [ht a rfl]

/-- Reading a list of pairs from behind finds the last one of a name. -/
theorem lookup_reverse_eq_some_iff {α β : Type} [BEq α] [LawfulBEq α] {l : List (α × β)} {a : α}
    {b : β} : l.reverse.lookup a = some b ↔
      ∃ before after, l = before ++ (a, b) :: after ∧ ∀ c, (a, c) ∉ after := by
  rw [List.lookup_eq_some_iff]
  constructor
  · rintro ⟨after, before, hsplit, hafter⟩
    refine ⟨before.reverse, after.reverse, by simpa using congrArg List.reverse hsplit, ?_⟩
    intro c hc
    simpa using hafter (a, c) (List.mem_reverse.1 hc)
  · rintro ⟨before, after, rfl, hafter⟩
    refine ⟨after.reverse, before.reverse, by simp, fun p hp => ?_⟩
    rw [bne_iff_ne]
    rintro rfl
    exact hafter p.2 (List.mem_reverse.1 hp)

section

variable {α β : Type} {R : α → β → Prop} {as : List α} {bs : List β}

theorem exists_forall₂ (h : ∀ a ∈ as, ∃ b, R a b) : ∃ bs, List.Forall₂ R as bs := by
  induction as with
  | nil => exact ⟨[], .nil⟩
  | cons a as ih =>
    obtain ⟨⟨b, hb⟩, hrest⟩ := List.forall_mem_cons.1 h
    obtain ⟨bs, hbs⟩ := ih hrest
    exact ⟨b :: bs, .cons hb hbs⟩

theorem exists_eq_map {f : α → β} (h : ∀ b ∈ bs, ∃ a, b = f a) : ∃ l : List α, bs = l.map f := by
  obtain ⟨l, hl⟩ := exists_forall₂ h
  rw [← List.forall₂_map_right_iff, List.forall₂_eq_eq_eq] at hl
  exact ⟨l, hl⟩

theorem exists_split_of_forall₂ {before after : List β} {b : β}
    (h : List.Forall₂ R as (before ++ b :: after)) :
    ∃ front a back, as = front ++ a :: back ∧ List.Forall₂ R front before ∧ R a b ∧
      List.Forall₂ R back after := by
  induction before generalizing as with
  | nil =>
    obtain ⟨a, back, hab, hback, rfl⟩ := List.forall₂_cons_right_iff.1 h
    exact ⟨[], a, back, rfl, .nil, hab, hback⟩
  | cons c before ih =>
    obtain ⟨a, rest, hac, hrest, rfl⟩ := List.forall₂_cons_right_iff.1 h
    obtain ⟨front, a', back, rfl, hfront, hab, hback⟩ := ih hrest
    exact ⟨a :: front, a', back, rfl, .cons hac hfront, hab, hback⟩

theorem exists_of_mem_right (h : List.Forall₂ R as bs) : ∀ b ∈ bs, ∃ a ∈ as, R a b := by
  induction h with
  | nil => simp
  | cons hab _ ih =>
    refine List.forall_mem_cons.2 ⟨⟨_, List.mem_cons_self .., hab⟩, fun b hb => ?_⟩
    obtain ⟨a, ha, hr⟩ := ih b hb
    exact ⟨a, List.mem_cons_of_mem _ ha, hr⟩

theorem exists_of_mem_left (h : List.Forall₂ R as bs) : ∀ a ∈ as, ∃ b ∈ bs, R a b :=
  exists_of_mem_right h.flip

end

section

variable {α β ε : Type} {x : Except ε α} {f : α → Except ε β}

theorem bind_eq_ok_iff {b : β} : x >>= f = .ok b ↔ ∃ a, x = .ok a ∧ f a = .ok b := by
  cases x with
  | error e => simp [bind, Except.bind]
  | ok a => simp [bind, Except.bind]

theorem bind_eq_error_iff {e : ε} :
    x >>= f = .error e ↔ x = .error e ∨ ∃ a, x = .ok a ∧ f a = .error e := by
  cases x with
  | error e' => simp [bind, Except.bind]
  | ok a => simp [bind, Except.bind]

theorem map_eq_ok_iff {g : α → β} {b : β} : x.map g = .ok b ↔ ∃ a, x = .ok a ∧ g a = b := by
  cases x with
  | error e => simp [Except.map]
  | ok a => simp [Except.map]

theorem map_eq_error_iff {g : α → β} {e : ε} : x.map g = .error e ↔ x = .error e := by
  cases x with
  | error e' => simp [Except.map]
  | ok a => simp [Except.map]

theorem mapM_eq_ok_iff {as : List α} {bs : List β} :
    as.mapM f = .ok bs ↔ List.Forall₂ (fun a b => f a = .ok b) as bs := by
  induction as generalizing bs with
  | nil => simp [pure, Except.pure, eq_comm]
  | cons a as ih =>
    simp only [List.mapM_cons, bind_eq_ok_iff, pure, Except.pure, Except.ok.injEq, ih,
      List.forall₂_cons_left_iff]
    constructor
    · rintro ⟨b, hb, bs', hbs, rfl⟩
      exact ⟨b, bs', hb, hbs, rfl⟩
    · rintro ⟨b, bs', hb, hbs, rfl⟩
      exact ⟨b, hb, bs', hbs, rfl⟩

theorem exists_mapM_eq_ok {as : List α} (h : ∀ a ∈ as, ∃ b, f a = .ok b) :
    ∃ bs, as.mapM f = .ok bs := by
  simp only [mapM_eq_ok_iff]
  exact exists_forall₂ h

theorem mapM_map {g : β → α} {bs : List β} (h : ∀ b ∈ bs, f (g b) = .ok b) :
    (bs.map g).mapM f = .ok bs :=
  mapM_eq_ok_iff.2 (List.forall₂_map_left_iff.2 (List.forall₂_same.2 h))

end

end DocMatch
