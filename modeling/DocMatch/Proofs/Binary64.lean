import DocMatch.Compare

/-!
Signs of computed numbers. Rounding keeps the sign, so sums of numbers that are not negative are not
negative, and a number lies within every tolerance of itself. Main statement: `within_self`.
-/

namespace DocMatch

namespace Binary64

theorem sub_self {x : Binary64} (h : x.isFinite = true) : x.sub x = zero := by
  cases x with
  | nan => cases h
  | infinite s => cases h
  | finite s u =>
    have hsum : signed s u + signed (!s) u = 0 := by
      cases s with
      | true => exact Int.add_left_neg _
      | false => exact Int.add_right_neg _
    simp [sub, neg, add, hsum, zero]

theorem zero_le_ofUnits (num den : Nat) : zero.le (ofUnits false num den) = true := by
  unfold ofUnits
  dsimp only
  split
  · simp [zero, le_finite, signed]
  · rfl

theorem zero_le_add {x y : Binary64} (hx : zero.le x = true) (hy : zero.le y = true) :
    zero.le (x.add y) = true := by
  cases x with
  | nan => cases hx
  | infinite s =>
    cases s with
    | true => cases hx
    | false =>
      cases y with
      | nan => cases hy
      | infinite s' =>
        cases s' with
        | true => cases hy
        | false => rfl
      | finite s' u' => rfl
  | finite s u =>
    cases y with
    | nan => cases hy
    | infinite s' =>
      cases s' with
      | true => cases hy
      | false => rfl
    | finite s' u' =>
      have hsum : ¬ signed s u + signed s' u' < 0 := by
        simp only [zero, le_finite, decide_eq_true_eq] at hx hy
        have hzero : signed false 0 = 0 := rfl
        omega
      simp only [add]
      split
      · simp [zero, le_finite, signed]
      · rw [decide_eq_false hsum]
        exact zero_le_ofUnits _ _

theorem max_finite (u v : Nat) : ∃ w, (finite false u).max (finite false v) = finite false w := by
  unfold max
  dsimp only
  split
  · exact ⟨v, rfl⟩
  · exact ⟨u, rfl⟩

end Binary64

open Binary64

theorem NumberTest.within_self {x tolerance : Binary64} (hx : x.isFinite = true)
    (htolerance : Binary64.zero.le tolerance = true) : within x x tolerance = true := by
  have hscale : ∃ w, (x.abs.max x.abs).max .one = finite false w := by
    cases x with
    | nan => cases hx
    | infinite s => cases hx
    | finite s u =>
      obtain ⟨v, hv⟩ := max_finite u u
      obtain ⟨w, hw⟩ := max_finite v Binary64.scale
      exact ⟨w, by rw [Binary64.abs, hv, Binary64.one, hw]⟩
  obtain ⟨w, hw⟩ := hscale
  have hwidened : Binary64.zero.le (epsilon.mul (finite false w)) = true := zero_le_ofUnits _ _
  rw [within, hw, sub_self hx]
  exact zero_le_add htolerance hwidened

theorem Config.isFinite_tolerance {config : Config} (h : config.isValid = true) :
    config.tolerance.isFinite = true := by
  rw [Config.isValid, Bool.and_eq_true] at h
  exact h.1

theorem Config.zero_le_tolerance {config : Config} (h : config.isValid = true) :
    Binary64.zero.le config.tolerance = true := by
  simp only [Config.isValid, Bool.and_eq_true, Bool.not_eq_true'] at h
  obtain ⟨hfinite, hnegative⟩ := h
  generalize config.tolerance = x at hfinite hnegative
  cases x with
  | nan => cases hfinite
  | infinite s => cases hfinite
  | finite s u =>
    simp only [lt, zero, le_finite, Bool.and_eq_false_iff, Bool.not_eq_false',
      decide_eq_false_iff_not, decide_eq_true_eq] at hnegative ⊢
    omega

end DocMatch
