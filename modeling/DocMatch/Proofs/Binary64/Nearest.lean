import DocMatch.Binary64.Decimal
import DocMatch.Proofs.Binary64.Rounding

/-!
What a number becomes where it has to have 53 binary digits. Numbers below the rounding limit become
finite and are moved no further than rounding goes; all others become infinite, with their sign.
Computing with units rounds so, and so does reading a decimal, where the shortcuts for exponents far
out make no difference. Main statements: `rounded_ofUnits` and `rounded_ofDecimal`.
-/

namespace DocMatch

namespace Binary64

/-- The number `q`, rounded. How far it was moved is told by `q` and by what it became. -/
inductive Rounded (q : ℚ) : Binary64 → Prop where
  | finite {s : Bool} {u : Nat} (below : |q| * scale < roundingLimit) (bounded : u < limit)
      (digits : 2 ^ excess u ∣ u) (near : |(signed s u : ℚ) - q * scale| ≤ slack (|q| * scale))
      (nearby : |(signed s u : ℚ) - q * scale| ≤ slack u) : Rounded q (.finite s u)
  | infinite {s : Bool} (beyond : (roundingLimit : ℚ) ≤ |q| * scale) (sign : s = true ↔ q < 0) :
      Rounded q (.infinite s)

theorem Rounded.lt_limit {q : ℚ} {s : Bool} {u : Nat} (h : Rounded q (.finite s u)) :
    u < limit := by
  cases h with
  | finite _ hu _ _ _ => exact hu

theorem Rounded.two_pow_excess_dvd {q : ℚ} {s : Bool} {u : Nat} (h : Rounded q (.finite s u)) :
    2 ^ excess u ∣ u := by
  cases h with
  | finite _ _ hdigits _ _ => exact hdigits

theorem cast_scale_pos : (0 : ℚ) < scale :=
  Nat.cast_pos.2 scale_pos

theorem one_le_cast_roundingLimit : (1 : ℚ) ≤ roundingLimit :=
  Nat.one_le_cast.2 roundingLimit_pos

def overflow : ℚ := 2 ^ 1024 - 2 ^ 970

theorem le_overflow {q : ℚ} (h : q ≤ 2 ^ 970) : q ≤ overflow := by
  have hexponent : 1024 = 54 + 970 := by norm_num
  calc q ≤ 2 ^ 970 := h
    _ ≤ (2 ^ 54 - 1) * 2 ^ 970 := le_mul_of_one_le_left (by positivity) (by norm_num)
    _ = overflow := by rw [overflow, hexponent, pow_add, sub_mul, one_mul]

theorem roundingLimit_eq : (roundingLimit : ℚ) = overflow * scale := by
  have hunits : roundingLimit + 2 ^ 970 * scale = 2 ^ 1024 * scale := by decide +kernel
  have hcast : (roundingLimit : ℚ) + 2 ^ 970 * scale = 2 ^ 1024 * scale := by
    exact_mod_cast hunits
  rw [overflow, sub_mul, ← hcast, add_sub_cancel_right]

theorem roundingLimit_le_iff {q : ℚ} : (roundingLimit : ℚ) ≤ |q| * scale ↔ overflow ≤ |q| := by
  rw [roundingLimit_eq, mul_le_mul_iff_left₀ cast_scale_pos]

theorem Rounded.ne_nan {q : ℚ} {x : Binary64} (h : Rounded q x) : x ≠ nan := by
  cases h <;> simp

theorem Rounded.isFinite_iff {q : ℚ} {x : Binary64} (h : Rounded q x) :
    x.isFinite = true ↔ |q| < overflow := by
  rw [← not_le, ← roundingLimit_le_iff]
  cases h with
  | finite below _ _ _ _ => simpa [isFinite] using below
  | infinite beyond _ => simpa [isFinite] using beyond

theorem Rounded.eq_infinite {q : ℚ} {x : Binary64} (h : Rounded q x) (hq : overflow ≤ |q|) :
    x = Binary64.infinite (decide (q < 0)) := by
  cases h with
  | finite below _ _ _ _ => exact absurd (roundingLimit_le_iff.2 hq) (not_le.2 below)
  | infinite _ sign => rw [Bool.eq_iff_iff.2 (sign.trans decide_eq_true_iff.symm)]

def withSign (negative : Bool) (q : ℚ) : ℚ := if negative then -q else q

theorem abs_withSign (negative : Bool) (q : ℚ) : |withSign negative q| = |q| := by
  cases negative with
  | true => exact abs_neg q
  | false => rfl

theorem withSign_neg_iff (negative : Bool) {q : ℚ} (h : 0 < q) :
    negative = true ↔ withSign negative q < 0 := by
  cases negative with
  | true => simpa [withSign] using h
  | false => simpa [withSign] using h.le

theorem signed_sub_withSign (negative : Bool) (u : Nat) (q : ℚ) :
    |(signed negative u : ℚ) - withSign negative q| = |(u : ℚ) - q| := by
  cases negative with
  | true =>
    have hneg : ((signed true u : ℤ) : ℚ) - withSign true q = -((u : ℚ) - q) := by
      simp only [signed, withSign, if_true]
      push_cast
      ring
    rw [hneg, abs_neg]
  | false => simp [signed, withSign]

theorem withSign_mul (negative : Bool) (q r : ℚ) :
    withSign negative q * r = withSign negative (q * r) := by
  cases negative with
  | true => exact neg_mul q r
  | false => rfl

/-- Computed with units, a number is rounded. -/
theorem rounded_ofUnits (negative : Bool) (num : Nat) {den : Nat} (hden : 0 < den) {q : ℚ}
    (hq : 0 ≤ q) (hunits : q * scale = num / den) :
    Rounded (withSign negative q) (ofUnits negative num den) := by
  have hden' : (0 : ℚ) < den := by exact_mod_cast hden
  have hsize : |withSign negative q| * scale = num / den := by
    rw [abs_withSign, abs_of_nonneg hq, hunits]
  have hnear := abs_roundUnits_sub_le num hden
  have hiff : roundUnits num den < limit ↔ num < roundingLimit * den :=
    roundUnits_lt_limit_iff hden
  simp only [ofUnits]
  split
  next hlt =>
    have hbelow : (num : ℚ) < roundingLimit * den := by exact_mod_cast hiff.1 hlt
    refine .finite ?_ hlt (two_pow_excess_dvd_roundUnits num den) ?_ ?_
    · rwa [hsize, div_lt_iff₀ hden']
    · rw [hsize, withSign_mul, signed_sub_withSign, hunits]
      exact hnear.1
    · rw [withSign_mul, signed_sub_withSign, hunits]
      exact hnear.2
  next hge =>
    have hbeyond : (roundingLimit : ℚ) * den ≤ num := by
      exact_mod_cast Nat.le_of_not_lt (mt hiff.2 hge)
    have hreaches : (roundingLimit : ℚ) ≤ q * scale := by rwa [hunits, le_div_iff₀ hden']
    refine .infinite ?_ (withSign_neg_iff negative ?_)
    · rwa [hsize, ← hunits]
    · exact pos_of_mul_pos_left (one_pos.trans_le (one_le_cast_roundingLimit.trans hreaches))
        cast_scale_pos.le

theorem rounded_zero (negative : Bool) {q : ℚ} (h : |q| * scale ≤ 1 / 2) :
    Rounded q (.finite negative 0) := by
  have hdistance : |(signed negative 0 : ℚ) - q * scale| ≤ 1 / 2 := by
    have hzero : (signed negative 0 : ℚ) = 0 := by cases negative <;> simp [signed]
    rwa [hzero, zero_sub, abs_neg, abs_mul, abs_of_pos cast_scale_pos]
  have hlimit := one_le_cast_roundingLimit
  exact .finite (by linarith) (scale_pos.trans scale_lt_limit) (dvd_zero _)
    (hdistance.trans le_sup_left) (hdistance.trans le_sup_left)

theorem roundingLimit_le_of_large {digits e : Nat} (hdigits : digits ≠ 0) (he : 400 < e) :
    (roundingLimit : ℚ) ≤ digits * 10 ^ e * scale := by
  have hpower : roundingLimit ≤ 10 ^ 401 * scale := by decide +kernel
  have h : roundingLimit ≤ digits * 10 ^ e * scale := by
    refine hpower.trans (Nat.mul_le_mul_right _ ?_)
    calc 10 ^ 401 ≤ 10 ^ e := Nat.pow_le_pow_right (by decide) he
      _ ≤ digits * 10 ^ e := Nat.le_mul_of_pos_left _ (Nat.pos_of_ne_zero hdigits)
  exact_mod_cast h

theorem le_half_of_small {digits e : Nat} (he : 400 + digits.log2 < e) :
    (digits : ℚ) / 10 ^ (e + 1) * scale ≤ 1 / 2 := by
  have hscale : 2 * scale ≤ 10 ^ 400 := by decide +kernel
  have hlog : digits < 2 ^ (digits.log2 + 1) := Nat.lt_log2_self
  have h : 2 * (digits * scale) ≤ 10 ^ (e + 1) := by
    calc 2 * (digits * scale) = digits * (2 * scale) := by ring
      _ ≤ 10 ^ (digits.log2 + 1) * 10 ^ 400 :=
        Nat.mul_le_mul (hlog.le.trans (Nat.pow_le_pow_left (by decide) _)) hscale
      _ = 10 ^ (digits.log2 + 1 + 400) := (Nat.pow_add ..).symm
      _ ≤ 10 ^ (e + 1) := Nat.pow_le_pow_right (by decide) (by omega)
  have h' : 2 * ((digits : ℚ) * scale) ≤ 10 ^ (e + 1) := by exact_mod_cast h
  rw [div_mul_eq_mul_div, div_le_div_iff₀ (by positivity) (by positivity)]
  linarith

/-- Read from decimal text, a number is rounded. -/
theorem rounded_ofDecimal (negative : Bool) (digits : Nat) (exponent : ℤ) :
    Rounded (withSign negative (digits * 10 ^ exponent)) (ofDecimal negative digits exponent) := by
  unfold ofDecimal
  split
  next hzero =>
    refine rounded_zero negative ?_
    rw [abs_withSign, hzero]
    simp
  next hdigits =>
    have hpos : (0 : ℚ) < digits := by exact_mod_cast Nat.pos_of_ne_zero hdigits
    split
    next e =>
      have hpower : (10 : ℚ) ^ Int.ofNat e = 10 ^ e := zpow_natCast 10 e
      rw [hpower]
      split
      next hlarge =>
        refine .infinite ?_ (withSign_neg_iff negative (by positivity))
        rw [abs_withSign, abs_of_nonneg (by positivity)]
        exact roundingLimit_le_of_large hdigits hlarge
      next =>
        refine rounded_ofUnits negative _ Nat.one_pos (by positivity) ?_
        simp
    next e =>
      have hpower : (10 : ℚ) ^ Int.negSucc e = (10 ^ (e + 1))⁻¹ := zpow_negSucc 10 e
      rw [hpower, ← div_eq_mul_inv]
      split
      next hsmall =>
        refine rounded_zero negative ?_
        rw [abs_withSign, abs_of_nonneg (by positivity)]
        exact le_half_of_small hsmall
      next =>
        refine rounded_ofUnits negative _ (Nat.pow_pos (by decide)) (by positivity) ?_
        push_cast
        exact div_mul_eq_mul_div ..

end Binary64

end DocMatch
