import DocMatch.Proofs.Binary64.Order

/-!
How far rounding goes. It moves a number by no more than half a unit in the 53rd binary digit, of
the number or of what it is rounded to, leaves alone what has no further digits, and goes beyond all
numbers from the middle between the largest of them and `limit` on. Main statements:
`abs_roundUnits_sub_le`, `roundUnits_of_dvd` and `roundUnits_lt_limit_iff`.
-/

namespace DocMatch

namespace Binary64

theorem roundQuotient_cases (num den : Nat) :
    (roundQuotient num den = num / den ∧ 2 * (num % den) ≤ den) ∨
      (roundQuotient num den = num / den + 1 ∧ den ≤ 2 * (num % den)) := by
  simp only [roundQuotient]
  split
  · exact .inl ⟨rfl, by omega⟩
  · split
    · exact .inr ⟨rfl, by omega⟩
    · rcases Nat.mod_two_eq_zero_or_one (num / den) with h | h <;> rw [h]
      · exact .inl ⟨rfl, by omega⟩
      · exact .inr ⟨rfl, by omega⟩

/-- The nearest whole number is at most one half away. -/
theorem two_mul_roundQuotient (num : Nat) {den : Nat} (hden : 0 < den) :
    2 * (roundQuotient num den * den) ≤ 2 * num + den ∧
      2 * num ≤ 2 * (roundQuotient num den * den) + den := by
  have hnum : num / den * den + num % den = num := Nat.div_add_mod' num den
  have hlt : num % den < den := Nat.mod_lt num hden
  rcases roundQuotient_cases num den with ⟨heq, hr⟩ | ⟨heq, hr⟩
  · rw [heq]
    omega
  · have hnext : (num / den + 1) * den = num / den * den + den := Nat.add_one_mul ..
    rw [heq, hnext]
    omega

/-- Half of what the last of 53 digits counts, or half a unit. -/
def slack (x : ℚ) : ℚ := (1 / 2) ⊔ (x / 2 ^ 53)

theorem half_step_le_slack {e : Nat} {x : ℚ} (h : 0 < e → (2 : ℚ) ^ (52 + e) ≤ x) :
    (2 : ℚ) ^ e / 2 ≤ slack x := by
  rcases Nat.eq_zero_or_pos e with rfl | he
  · exact le_sup_of_le_left (by norm_num)
  · refine le_sup_of_le_right ?_
    have hpow := h he
    rw [pow_add] at hpow
    rw [div_le_div_iff₀ (by norm_num) (by norm_num)]
    linarith

section

variable (num : Nat) {den : Nat} (hden : 0 < den)

include hden

theorem abs_roundUnits_sub_le_step :
    |(roundUnits num den : ℚ) - num / den| ≤ 2 ^ excess (num / den) / 2 := by
  obtain ⟨hupper, hlower⟩ := two_mul_roundQuotient num
    (Nat.mul_pos hden (Nat.two_pow_pos (excess (num / den))))
  rw [roundUnits_eq]
  generalize roundQuotient num (den * 2 ^ excess (num / den)) = n at hupper hlower ⊢
  generalize hstep : 2 ^ excess (num / den) = step at hupper hlower ⊢
  have hden' : (0 : ℚ) < den := by exact_mod_cast hden
  have hupper' : 2 * ((n : ℚ) * (den * step)) ≤ 2 * num + den * step := by exact_mod_cast hupper
  have hlower' : 2 * (num : ℚ) ≤ 2 * (n * (den * step)) + den * step := by exact_mod_cast hlower
  have hsub : ((n * step : Nat) : ℚ) - num / den = (n * (den * step) - num) / den := by
    push_cast
    field_simp
  have hstep' : (2 : ℚ) ^ excess (num / den) = step := by exact_mod_cast hstep
  rw [hsub, hstep', abs_div, abs_of_pos hden', div_le_iff₀ hden', abs_le]
  constructor <;> linarith

/-- Either of the two numbers tells how far rounding may go. -/
theorem abs_roundUnits_sub_le :
    |(roundUnits num den : ℚ) - num / den| ≤ slack (num / den) ∧
      |(roundUnits num den : ℚ) - num / den| ≤ slack (roundUnits num den) := by
  have hstep := abs_roundUnits_sub_le_step num hden
  refine ⟨hstep.trans (half_step_le_slack fun he => ?_),
    hstep.trans (half_step_le_slack fun he => by exact_mod_cast le_roundUnits he)⟩
  have hfloor : 2 ^ (52 + excess (num / den)) ≤ num / den := two_pow_excess_le he
  calc (2 : ℚ) ^ (52 + excess (num / den))
      ≤ ((num / den : Nat) : ℚ) := by exact_mod_cast hfloor
    _ ≤ num / den := Nat.cast_div_le

end

theorem two_pow_excess_dvd_roundUnits (num den : Nat) :
    2 ^ excess (roundUnits num den) ∣ roundUnits num den := by
  have hle := roundUnits_le num den
  rcases Nat.lt_or_eq_of_le hle with hlt | heq
  · have hexcess : excess (roundUnits num den) ≤ excess (num / den) := by
      have hlog : (roundUnits num den).log2 < 53 + excess (num / den) := by
        rcases Nat.eq_zero_or_pos (roundUnits num den) with h | h
        · rw [h, Nat.log2_zero]
          omega
        · exact (Nat.log2_lt h.ne').2 hlt
      unfold excess at hlog ⊢
      omega
    exact (Nat.pow_dvd_pow 2 hexcess).trans ⟨_, (roundUnits_eq num den).trans (Nat.mul_comm ..)⟩
  · rw [heq]
    refine Nat.pow_dvd_pow 2 ?_
    rw [excess, Nat.log2_two_pow]
    omega

theorem roundQuotient_mul_right (n : Nat) {den : Nat} (hden : 0 < den) :
    roundQuotient (n * den) den = n := by
  simp only [roundQuotient, Nat.mul_div_cancel n hden, Nat.mul_mod_left]
  rw [if_pos (by omega)]

/-- In the middle between two numbers it is the even one of them that is taken. -/
theorem roundQuotient_of_middle {num den q : Nat} (hden : 0 < den) (hodd : q % 2 = 1)
    (h : 2 * num = 2 * (q * den) + den) : roundQuotient num den = q + 1 := by
  have hnum : num = num - q * den + q * den := by omega
  have hdiv : num / den = q := by
    rw [hnum, Nat.add_mul_div_right _ _ hden, Nat.div_eq_of_lt (by omega), Nat.zero_add]
  have hmod : num % den = num - q * den := by
    rw [Nat.mod_eq_sub_div_mul, hdiv]
  simp only [roundQuotient, hdiv, hmod, hodd]
  rw [if_neg (by omega), if_neg (by omega)]

theorem roundQuotient_le_of_lt_middle {num den q middle : Nat} (hden : 0 < den)
    (hmiddle : 2 * middle = 2 * (q * den) + den) (h : num < middle) :
    roundQuotient num den ≤ q := by
  obtain ⟨hupper, -⟩ := two_mul_roundQuotient num hden
  generalize roundQuotient num den = n at hupper ⊢
  by_contra hgt
  have hle : (q + 1) * den ≤ n * den := Nat.mul_le_mul_right den (Nat.lt_of_not_le hgt)
  rw [Nat.add_one_mul] at hle
  omega

theorem roundUnits_of_dvd {units den : Nat} (h : 2 ^ excess units ∣ units) (hden : 0 < den) :
    roundUnits (units * den) den = units := by
  obtain ⟨n, hn⟩ := h
  have hquotient : roundQuotient (units * den) (den * 2 ^ excess units) = n := by
    have hproduct : units * den = n * (den * 2 ^ excess units) := by
      calc units * den = 2 ^ excess units * n * den := by rw [← hn]
        _ = n * (den * 2 ^ excess units) := by ring
    rw [hproduct]
    exact roundQuotient_mul_right n (Nat.mul_pos hden (Nat.two_pow_pos _))
  rw [roundUnits_eq, Nat.mul_div_cancel _ hden, hquotient, Nat.mul_comm, ← hn]

theorem roundUnits_lt_of_excess_lt {num den e : Nat} (h : excess (num / den) < e) :
    roundUnits num den < 2 ^ 53 * 2 ^ e := by
  rw [← Nat.pow_add]
  exact (roundUnits_le num den).trans_lt (Nat.pow_lt_pow_right (by decide) (by omega))

theorem ofUnits_of_dvd (negative : Bool) {units den : Nat} (hlt : units < limit)
    (hdigits : 2 ^ excess units ∣ units) (hden : 0 < den) :
    ofUnits negative (units * den) den = finite negative units := by
  simp only [ofUnits, roundUnits_of_dvd hdigits hden, if_pos hlt]

theorem scale_eq : scale = 2 ^ 1074 := by
  simp only [scale, Nat.one_shiftLeft]

theorem limit_eq : limit = 2 ^ 53 * 2 ^ 2045 := by
  simp only [limit, Nat.one_shiftLeft, ← Nat.pow_add, Nat.reduceAdd]

theorem scale_pos : 0 < scale := by
  simp only [scale_eq, Nat.two_pow_pos]

theorem scale_lt_limit : scale < limit := by
  simp only [scale_eq, limit, Nat.one_shiftLeft, Nat.pow_lt_pow_iff_right, Nat.lt_add_one,
    Nat.reduceLT]

theorem excess_scale : excess scale = 1022 := by
  simp only [excess, scale_eq, Nat.log2_two_pow, Nat.reduceAdd, Nat.reduceSub]

theorem two_pow_excess_dvd_scale : 2 ^ excess scale ∣ scale := by
  have hdigits : 2 ^ excess scale ∣ 2 ^ 1074 :=
    Nat.pow_dvd_pow 2 (by rw [excess_scale]; decide)
  rwa [← scale_eq] at hdigits

/-- The middle between the largest number and `limit`, in units. -/
def roundingLimit : Nat := limit - (1 <<< 2044)

theorem roundingLimit_pos : 0 < roundingLimit := by
  refine Nat.sub_pos_of_lt ?_
  simp only [limit, Nat.one_shiftLeft, Nat.pow_lt_pow_iff_right, Nat.lt_add_one, Nat.reduceLT]

theorem two_mul_roundingLimit :
    2 * roundingLimit = 2 * ((2 ^ 53 - 1) * 2 ^ 2045) + 2 ^ 2045 := by
  decide +kernel

theorem two_mul_roundingLimit_mul (den : Nat) :
    2 * (roundingLimit * den) = 2 * ((2 ^ 53 - 1) * (den * 2 ^ 2045)) + den * 2 ^ 2045 := by
  rw [← Nat.mul_assoc, two_mul_roundingLimit, Nat.add_mul, Nat.mul_assoc 2,
    Nat.mul_assoc (2 ^ 53 - 1), Nat.mul_comm den]

theorem excess_roundingLimit : excess roundingLimit = 2045 := by
  decide +kernel

section

variable {num den : Nat} (hden : 0 < den)

include hden

theorem roundUnits_roundingLimit : roundUnits (roundingLimit * den) den = limit := by
  have hstep : 0 < den * 2 ^ 2045 := by positivity
  rw [roundUnits_eq, Nat.mul_div_cancel _ hden, excess_roundingLimit,
    roundQuotient_of_middle hstep (by decide) (two_mul_roundingLimit_mul den), limit_eq,
    Nat.sub_add_cancel (Nat.two_pow_pos 53)]

theorem roundUnits_lt_limit (h : num < roundingLimit * den) : roundUnits num den < limit := by
  have hfloor : num / den < roundingLimit := (Nat.div_lt_iff_lt_mul hden).2 h
  have hexcess : excess (num / den) ≤ 2045 := by
    rw [← excess_roundingLimit]
    exact excess_mono hfloor.le
  rw [limit_eq]
  rcases Nat.lt_or_eq_of_le hexcess with hlt | heq
  · exact roundUnits_lt_of_excess_lt hlt
  · have hstep : 0 < den * 2 ^ 2045 := by positivity
    have hquotient := roundQuotient_le_of_lt_middle hstep (two_mul_roundingLimit_mul den) h
    rw [roundUnits_eq, heq]
    exact Nat.mul_lt_mul_of_pos_right (hquotient.trans_lt (by decide)) (by positivity)

theorem roundUnits_lt_limit_iff : roundUnits num den < limit ↔ num < roundingLimit * den := by
  refine ⟨fun h => Nat.lt_of_not_le fun hge => h.not_ge ?_, roundUnits_lt_limit hden⟩
  rw [← roundUnits_roundingLimit hden]
  exact roundUnits_mono hge den

end

end Binary64

end DocMatch
