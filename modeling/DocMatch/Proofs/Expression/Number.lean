import DocMatch.Proofs.Decimal

/-!
Numbers in expressions against their grammar: the reader takes the decimals that nothing of a number
follows, and all of them. Main statements: `numberToken?_sound` and `numberToken?_complete`.
-/

namespace DocMatch.Expression

open Binary64 (AllDigits IsSign IsMantissa IsExponent IsDecimal)

def EndsNumber (t : List Char) : Prop :=
  ∀ c ∈ t.head?, c.isDigit = false ∧ c ≠ '.' ∧ c ≠ 'e' ∧ c ≠ 'E'

theorem endsNumber_cons {c : Char} {t : List Char}
    (h : c.isDigit = false ∧ c ≠ '.' ∧ c ≠ 'e' ∧ c ≠ 'E') : EndsNumber (c :: t) := by
  intro b hb
  obtain rfl : c = b := Option.some.inj hb
  exact h

theorem takeSign_append_eq (s : List Char) : (takeSign s).1 ++ (takeSign s).2 = s := by
  unfold takeSign
  split <;> rfl

theorem takeSign_complete {s t : List Char} (hs : IsSign s)
    (ht : ∀ c ∈ t.head?, c ≠ '-' ∧ c ≠ '+') : takeSign (s ++ t) = (s, t) := by
  rcases hs with rfl | rfl | rfl
  · rw [List.nil_append]
    unfold takeSign
    split
    next => exact absurd rfl (ht '+' rfl).2
    next => exact absurd rfl (ht '-' rfl).1
    next => rfl
  · rfl
  · rfl

theorem mantissa?_append_eq {s m t : List Char} (h : mantissa? s = some (m, t)) : m ++ t = s := by
  have hs : s.takeWhile Char.isDigit ++ s.dropWhile Char.isDigit = s :=
    List.takeWhile_append_dropWhile ..
  unfold mantissa? at h
  dsimp only at h
  split at h
  next u hu =>
    split at h
    · cases h
    · obtain ⟨rfl, rfl⟩ := Prod.mk.inj (Option.some.inj h)
      rw [List.append_assoc, List.cons_append, List.takeWhile_append_dropWhile, ← hu, hs]
  next =>
    split at h
    · cases h
    · obtain ⟨rfl, rfl⟩ := Prod.mk.inj (Option.some.inj h)
      exact hs

theorem mantissa?_complete {m t : List Char} (hm : IsMantissa m)
    (ht : ∀ c ∈ t.head?, c.isDigit = false ∧ c ≠ '.') : mantissa? (m ++ t) = some (m, t) := by
  have hdigits : ∀ c ∈ t.head?, c.isDigit = false := fun c hc => (ht c hc).1
  cases hm with
  | whole hw hne =>
    obtain ⟨htake, hdrop⟩ := span_append hw hdigits
    unfold mantissa?
    simp only [htake, hdrop]
    split
    next u => exact absurd rfl (ht '.' rfl).2
    next => rw [if_neg (by simpa using hne)]
  | @point w f hw hf hne =>
    obtain ⟨htake, hdrop⟩ := span_append (t := '.' :: (f ++ t)) hw (by simp)
    obtain ⟨hftake, hfdrop⟩ := span_append hf hdigits
    have hempty : (w.isEmpty && f.isEmpty) = false := by
      rcases hne with hne | hne <;> simp [hne]
    unfold mantissa?
    simp only [List.append_assoc, List.cons_append, htake, hdrop, hftake, hfdrop, hempty]
    rfl

theorem exponent?_append_eq {s e t : List Char} (h : exponent? s = some (e, t)) : e ++ t = s := by
  unfold exponent? at h
  split at h
  · obtain ⟨rfl, rfl⟩ := Prod.mk.inj (Option.some.inj h)
    rfl
  next c u =>
    dsimp only at h
    split at h
    · split at h
      · cases h
      · obtain ⟨rfl, rfl⟩ := Prod.mk.inj (Option.some.inj h)
        rw [List.append_assoc, List.takeWhile_append_dropWhile, List.cons_append,
          takeSign_append_eq]
    · obtain ⟨rfl, rfl⟩ := Prod.mk.inj (Option.some.inj h)
      rfl

theorem exponent?_complete {e t : List Char} (he : IsExponent e) (ht : EndsNumber t) :
    exponent? (e ++ t) = some (e, t) := by
  cases he with
  | none =>
    cases t with
    | nil => rfl
    | cons c t =>
      obtain ⟨-, -, he, hE⟩ := ht c rfl
      rw [List.nil_append, exponent?, if_neg (by simp [he, hE])]
  | @letter c s d hc hs hd hne =>
    have hsign : ∀ c ∈ (d ++ t).head?, c ≠ '-' ∧ c ≠ '+' := (IsMantissa.whole hd hne).ne_sign t
    obtain ⟨htake, hdrop⟩ := span_append hd fun c hc => (ht c hc).1
    rw [List.cons_append, List.append_assoc, exponent?, if_pos (by simpa using hc),
      takeSign_complete hs hsign]
    dsimp only
    rw [htake, hdrop, if_neg (by simpa using hne)]
    rfl

theorem numberToken?_sound {s n t : List Char} (h : numberToken? s = some (n, t)) :
    IsDecimal n ∧ s = n ++ t := by
  refine ⟨isDecimal_of_numberToken? h, ?_⟩
  simp only [numberToken?, Option.bind_eq_bind, Option.bind_eq_some_iff] at h
  obtain ⟨⟨m, u⟩, hm, ⟨e, v⟩, he, h⟩ := h
  obtain ⟨rfl, rfl⟩ := Prod.mk.inj (Option.some.inj h)
  rw [List.append_assoc, exponent?_append_eq he, List.append_assoc, mantissa?_append_eq hm,
    takeSign_append_eq]

theorem numberToken?_complete {n t : List Char} (hn : IsDecimal n) (ht : EndsNumber t) :
    numberToken? (n ++ t) = some (n, t) := by
  cases hn with
  | @parts s m e hs hm he =>
    have hend : ∀ c ∈ (e ++ t).head?, c.isDigit = false ∧ c ≠ '.' := by
      intro c hc
      cases he with
      | none =>
        obtain ⟨hdigit, hpoint, -⟩ := ht c hc
        exact ⟨hdigit, hpoint⟩
      | letter he _ _ _ =>
        obtain rfl : _ = c := Option.some.inj hc
        rcases he with rfl | rfl <;> decide
    have hsign := takeSign_complete hs (hm.ne_sign (e ++ t))
    simp only [numberToken?, List.append_assoc, hsign, mantissa?_complete hm hend,
      exponent?_complete he ht, Option.bind_eq_bind, Option.bind_some]

end DocMatch.Expression
