import Mathlib
import DocMatch.Proofs.Binary64

/-!
Order and rounding. Rounding keeps the order of what is rounded, so sums keep the order of their
operands, and what lies within a tolerance lies within every wider one. Main statements:
`roundUnits_mono`, `add_le_add_right` and `within_mono`.
-/

namespace DocMatch

namespace Binary64

theorem le_roundQuotient (num den : Nat) : num / den ≤ roundQuotient num den := by
  simp only [roundQuotient]
  split
  · exact Nat.le_refl _
  · split <;> omega

theorem roundQuotient_le (num den : Nat) : roundQuotient num den ≤ num / den + 1 := by
  simp only [roundQuotient]
  split
  · omega
  · split <;> omega

theorem roundQuotient_mono {num num' : Nat} (h : num ≤ num') (den : Nat) :
    roundQuotient num den ≤ roundQuotient num' den := by
  have hquotient : num / den ≤ num' / den := Nat.div_le_div_right h
  rcases Nat.lt_or_eq_of_le hquotient with hlt | heq
  · exact (roundQuotient_le num den).trans (hlt.trans_le (le_roundQuotient num' den))
  · have hremainder : num % den ≤ num' % den := by
      have hnum := Nat.div_add_mod num den
      have hnum' := Nat.div_add_mod num' den
      rw [← heq] at hnum'
      omega
    simp only [roundQuotient, heq]
    split_ifs <;> omega

theorem lt_two_pow_excess (units : Nat) : units < 2 ^ (53 + excess units) :=
  Nat.lt_log2_self.trans_le (Nat.pow_le_pow_right (by decide) (by unfold excess; omega))

theorem two_pow_excess_le {units : Nat} (h : 0 < excess units) : 2 ^ (52 + excess units) ≤ units := by
  have hlog : 52 + excess units = units.log2 := by
    unfold excess at h ⊢
    omega
  have hne : units ≠ 0 := by
    rintro rfl
    exact absurd h (by decide)
  rw [hlog]
  exact Nat.log2_self_le hne

theorem excess_mono {units units' : Nat} (h : units ≤ units') : excess units ≤ excess units' := by
  have hlog : units.log2 ≤ units'.log2 := by
    rw [Nat.log2_eq_log_two, Nat.log2_eq_log_two]
    exact Nat.log_mono_right h
  unfold excess
  omega

theorem roundUnits_eq (num den : Nat) :
    roundUnits num den =
      roundQuotient num (den * 2 ^ excess (num / den)) * 2 ^ excess (num / den) := by
  simp only [roundUnits, Nat.shiftLeft_eq]

theorem roundUnits_le (num den : Nat) : roundUnits num den ≤ 2 ^ (53 + excess (num / den)) := by
  rw [roundUnits_eq, Nat.pow_add]
  refine Nat.mul_le_mul_right _ ((roundQuotient_le _ _).trans ?_)
  have hlt : num / (den * 2 ^ excess (num / den)) < 2 ^ 53 := by
    rw [← Nat.div_div_eq_div_mul, Nat.div_lt_iff_lt_mul (Nat.two_pow_pos _), ← Nat.pow_add]
    exact lt_two_pow_excess _
  exact hlt

theorem le_roundUnits {num den : Nat} (h : 0 < excess (num / den)) :
    2 ^ (52 + excess (num / den)) ≤ roundUnits num den := by
  rw [roundUnits_eq, Nat.pow_add]
  refine Nat.mul_le_mul_right _ (le_trans ?_ (le_roundQuotient _ _))
  rw [← Nat.div_div_eq_div_mul, Nat.le_div_iff_mul_le (Nat.two_pow_pos _), ← Nat.pow_add]
  exact two_pow_excess_le h

/-- Within one excess the quotients decide. A greater excess is a range of its own. -/
theorem roundUnits_mono {num num' : Nat} (h : num ≤ num') (den : Nat) :
    roundUnits num den ≤ roundUnits num' den := by
  have hexcess : excess (num / den) ≤ excess (num' / den) :=
    excess_mono (Nat.div_le_div_right h)
  rcases Nat.lt_or_eq_of_le hexcess with hlt | heq
  · calc roundUnits num den
        ≤ 2 ^ (53 + excess (num / den)) := roundUnits_le num den
      _ ≤ 2 ^ (52 + excess (num' / den)) := Nat.pow_le_pow_right (by decide) (by omega)
      _ ≤ roundUnits num' den := le_roundUnits (by omega)
  · rw [roundUnits_eq, roundUnits_eq, heq]
    exact Nat.mul_le_mul_right _ (roundQuotient_mono h _)

/-- Where a number lies among the units, the two infinities at the ends. -/
def place : Binary64 → WithBot (WithTop ℤ)
  | nan => ⊥
  | infinite true => ⊥
  | infinite false => ((⊤ : WithTop ℤ) : WithBot (WithTop ℤ))
  | finite s u => ((signed s u : WithTop ℤ) : WithBot (WithTop ℤ))

theorem le_iff_place_le {x y : Binary64} :
    x.le y = true ↔ x ≠ nan ∧ y ≠ nan ∧ x.place ≤ y.place := by
  rcases x with _ | (_ | _) | ⟨s, u⟩ <;> rcases y with _ | (_ | _) | ⟨s', u'⟩ <;>
    simp [le, place]

theorem le_trans {x y z : Binary64} (hxy : x.le y = true) (hyz : y.le z = true) :
    x.le z = true := by
  obtain ⟨hx, -, hxy⟩ := le_iff_place_le.1 hxy
  obtain ⟨-, hz, hyz⟩ := le_iff_place_le.1 hyz
  exact le_iff_place_le.2 ⟨hx, hz, hxy.trans hyz⟩

theorem signed_not (s : Bool) (u : Nat) : signed (!s) u = -signed s u := by
  cases s <;> simp [signed]

theorem neg_le_neg_iff {x y : Binary64} : x.neg.le y.neg = true ↔ y.le x = true := by
  rcases x with _ | (_ | _) | ⟨s, u⟩ <;> rcases y with _ | (_ | _) | ⟨s', u'⟩ <;>
    simp [le, neg, signed_not]

theorem neg_ofUnits (negative : Bool) (num den : Nat) :
    (ofUnits negative num den).neg = ofUnits (!negative) num den := by
  simp only [ofUnits]
  split <;> rfl

theorem ofUnits_mono {num num' : Nat} (h : num ≤ num') (den : Nat) :
    (ofUnits false num den).le (ofUnits false num' den) = true := by
  have hunits := roundUnits_mono h den
  simp only [ofUnits]
  split <;> split
  · simpa [le_finite, signed] using hunits
  · rfl
  · omega
  · rfl

def ofSum (negativeZero : Bool) (sum : ℤ) : Binary64 :=
  if sum = 0 then finite negativeZero 0 else ofUnits (sum < 0) sum.natAbs 1

theorem add_finite (s s' : Bool) (u u' : Nat) :
    (finite s u).add (finite s' u') = ofSum (s && s') (signed s u + signed s' u') := rfl

theorem ofSum_of_pos (negativeZero : Bool) {sum : ℤ} (h : 0 < sum) :
    ofSum negativeZero sum = ofUnits false sum.natAbs 1 := by
  rw [ofSum, if_neg h.ne', decide_eq_false (not_lt.2 h.le)]

theorem ofSum_of_neg (negativeZero : Bool) {sum : ℤ} (h : sum < 0) :
    ofSum negativeZero sum = ofUnits true sum.natAbs 1 := by
  rw [ofSum, if_neg h.ne, decide_eq_true h]

theorem zero_le_ofSum (negativeZero : Bool) {sum : ℤ} (h : 0 ≤ sum) :
    zero.le (ofSum negativeZero sum) = true := by
  rcases h.eq_or_lt with rfl | hpos
  · cases negativeZero <;> rfl
  · rw [ofSum_of_pos _ hpos]
    exact zero_le_ofUnits _ _

theorem ofSum_le_zero (negativeZero : Bool) {sum : ℤ} (h : sum ≤ 0) :
    (ofSum negativeZero sum).le zero = true := by
  rcases h.eq_or_lt with rfl | hneg
  · cases negativeZero <;> rfl
  · have hzero : (ofUnits true sum.natAbs 1).le (finite true 0) = true :=
      neg_ofUnits false sum.natAbs 1 ▸ neg_le_neg_iff.2 (zero_le_ofUnits sum.natAbs 1)
    rw [ofSum_of_neg _ hneg]
    exact le_trans hzero rfl

/-- Sums on either side of zero are told by their signs, others by what is rounded. -/
theorem ofSum_mono (negativeZero negativeZero' : Bool) {m n : ℤ} (h : m ≤ n) :
    (ofSum negativeZero m).le (ofSum negativeZero' n) = true := by
  by_cases hzero : m ≤ 0 ∧ 0 ≤ n
  · exact le_trans (ofSum_le_zero _ hzero.1) (zero_le_ofSum _ hzero.2)
  · rcases lt_or_ge n 0 with hn | hn
    · rw [ofSum_of_neg _ (h.trans_lt hn), ofSum_of_neg _ hn, ← Bool.not_false, ← neg_ofUnits,
        ← neg_ofUnits]
      exact neg_le_neg_iff.2 (ofUnits_mono (by omega) 1)
    · rw [ofSum_of_pos _ (by omega), ofSum_of_pos _ (by omega)]
      exact ofUnits_mono (by omega) 1

theorem add_le_add_right {x y z : Binary64} (hx : x.isFinite = true) (hy : y.isFinite = true)
    (h : x.le y = true) (hz : z ≠ nan) : (x.add z).le (y.add z) = true := by
  cases x with
  | nan => cases hx
  | infinite s => cases hx
  | finite s u =>
    cases y with
    | nan => cases hy
    | infinite s' => cases hy
    | finite s' u' =>
      cases z with
      | nan => exact absurd rfl hz
      | infinite t => exact le_refl (x := infinite t) (by simp)
      | finite t v =>
        rw [le_finite, decide_eq_true_eq] at h
        rw [add_finite, add_finite]
        exact ofSum_mono _ _ (by omega)

theorem add_nan (x : Binary64) : x.add nan = nan := by
  cases x <;> rfl

end Binary64

open Binary64

/-- A wider tolerance takes in all that a narrower one does. -/
theorem NumberTest.within_mono {x target tolerance tolerance' : Binary64}
    (h : tolerance.isFinite = true) (h' : tolerance'.isFinite = true)
    (hle : tolerance.le tolerance' = true) (hwithin : within x target tolerance = true) :
    within x target tolerance' = true := by
  simp only [within] at hwithin ⊢
  refine Binary64.le_trans hwithin (add_le_add_right h h' hle fun hnan => ?_)
  rw [hnan, add_nan, le_nan] at hwithin
  cases hwithin

end DocMatch
