import DocMatch.Proofs.Binary64.Nearest

/-!
Numbers within a tolerance, against the rational numbers that they were rounded from. Widening the
tolerance makes up for all roundings on the way, so what lies within the tolerance exactly is found
to lie within it, two numbers too large to be finite apart. It adds little enough that what lies far
beyond the tolerance is found beyond it, as long as the widened tolerance is itself finite. Main
statements: `within_iff_of_abs_sub_le` and `abs_sub_le_of_within`.
-/

namespace DocMatch

namespace Binary64

def toRat : Binary64 → ℚ
  | finite s u => signed s u / scale
  | _ => 0

theorem toRat_finite_mul_scale {s : Bool} {u : Nat} (h : signed s u = u) :
    toRat (finite s u) * scale = u := by
  rw [toRat, h, Int.cast_natCast, div_mul_cancel₀ _ cast_scale_pos.ne']

theorem le_scale {x : ℚ} (h : x ≤ 2 ^ 106) : x ≤ scale := by
  have hscale : 2 ^ 106 ≤ scale := by
    simp only [scale_eq, Nat.pow_le_pow_iff_right, Nat.one_lt_ofNat, Nat.reduceLeDiff]
  exact h.trans (by exact_mod_cast hscale)

theorem slack_mono {x y : ℚ} (h : x ≤ y) : slack x ≤ slack y :=
  sup_le_sup_left (by gcongr) _

theorem slack_eq {x : ℚ} (h : 2 ^ 52 ≤ x) : slack x = x / 2 ^ 53 := by
  refine sup_eq_right.2 ?_
  rw [div_le_div_iff₀ (by norm_num) (by norm_num)]
  linarith

theorem abs_ofSum (negativeZero : Bool) (n : ℤ) :
    (ofSum negativeZero n).abs = ofUnits false n.natAbs 1 := by
  rcases lt_trichotomy n 0 with hneg | rfl | hpos
  · rw [ofSum_of_neg _ hneg, ofUnits, ofUnits]
    split <;> rfl
  · have hzero : ofUnits false 0 1 = finite false 0 :=
      ofUnits_of_dvd false (scale_pos.trans scale_lt_limit) (dvd_zero _) Nat.one_pos
    rw [Int.natAbs_zero, hzero]
    rfl
  · rw [ofSum_of_pos _ hpos, ofUnits]
    split <;> rfl

theorem abs_sub_finite (s s' : Bool) (u u' : Nat) :
    ((finite s u).sub (finite s' u')).abs =
      ofUnits false (signed s u - signed s' u').natAbs 1 := by
  rw [sub, neg, add_finite, signed_not, abs_ofSum, ← Int.sub_eq_add_neg]

theorem max_finite_eq (u v : Nat) :
    (finite false u).max (finite false v) = finite false (u ⊔ v) := by
  have hle : (finite false u).le (finite false v) = decide (u ≤ v) := by simp [le_finite, signed]
  unfold max
  dsimp only
  rw [hle]
  rcases Nat.le_total u v with h | h
  · rw [decide_eq_true h, if_pos rfl, sup_eq_right.2 h]
  · rcases Nat.lt_or_eq_of_le h with hlt | rfl
    · rw [decide_eq_false (Nat.not_le.2 hlt), if_neg Bool.false_ne_true, sup_eq_left.2 h]
    · simp

theorem epsilon_mul {w : Nat} (hw : w < limit) (hdigits : 2 ^ excess w ∣ w) :
    epsilon.mul (finite false (2 ^ 52 * w)) = finite false w := by
  have hscale : (1 <<< 1022) * 2 ^ 52 = scale := by
    simp only [scale_eq, Nat.one_shiftLeft, ← Nat.pow_add, Nat.reduceAdd]
  have hproduct : (1 <<< 1022) * (2 ^ 52 * w) = w * scale := by
    rw [← Nat.mul_assoc, hscale, Nat.mul_comm]
  show ofUnits false ((1 <<< 1022) * (2 ^ 52 * w)) scale = _
  rw [hproduct]
  exact ofUnits_of_dvd false hw hdigits scale_pos

theorem excess_of_mul (w : Nat) : excess w ≤ excess (2 ^ 52 * w) - 52 := by
  rcases Nat.eq_zero_or_pos w with rfl | hw
  · exact Nat.zero_le _
  · generalize hunits : 2 ^ 52 * w = units
    have hlt : 2 ^ 52 * w < 2 ^ 52 * 2 ^ (units.log2 + 1 - 52) := by
      rw [hunits, ← Nat.pow_add]
      exact Nat.lt_log2_self.trans_le (Nat.pow_le_pow_right (by decide) (by omega))
    have hlog : w.log2 < units.log2 + 1 - 52 :=
      (Nat.log2_lt hw.ne').2 (Nat.lt_of_mul_lt_mul_left hlt)
    unfold excess
    omega

theorem exists_eq_mul {units : Nat} (hscale : scale ≤ units) (hlimit : units < limit)
    (hdigits : 2 ^ excess units ∣ units) :
    ∃ w, units = 2 ^ 52 * w ∧ 0 < w ∧ w < limit ∧ 2 ^ excess w ∣ w := by
  have hexcess : 52 ≤ excess units := by
    have hone : 52 ≤ excess scale := by
      rw [excess_scale]
      decide
    exact hone.trans (excess_mono hscale)
  have hpos : 0 < units := scale_pos.trans_le hscale
  have hsplit : 2 ^ 52 * 2 ^ (excess units - 52) = 2 ^ excess units := by
    rw [← Nat.pow_add, Nat.add_sub_cancel' hexcess]
  obtain ⟨n, hn⟩ := hdigits
  have hunits : units = 2 ^ 52 * (2 ^ (excess units - 52) * n) := by
    rw [← Nat.mul_assoc, hsplit, ← hn]
  refine ⟨2 ^ (excess units - 52) * n, hunits, by omega, by omega, ?_⟩
  refine Dvd.dvd.trans (Nat.pow_dvd_pow 2 ?_) (Nat.dvd_mul_right ..)
  have hlog := excess_of_mul (2 ^ (excess units - 52) * n)
  rwa [← hunits] at hlog

theorem exists_eq_finite {x : Binary64} (h : x.isFinite = true) : ∃ s u, x = finite s u := by
  cases x with
  | finite s u => exact ⟨s, u, rfl⟩
  | _ => cases h

theorem exists_units {x : Binary64} (hfinite : x.isFinite = true) (hx : zero.le x = true) :
    ∃ s u, x = finite s u ∧ signed s u = u := by
  obtain ⟨s, u, rfl⟩ := exists_eq_finite hfinite
  refine ⟨s, u, rfl, ?_⟩
  have hsigned : 0 ≤ signed s u := by simpa [zero, le_finite, signed] using hx
  cases s with
  | true =>
    simp only [signed, if_true] at hsigned ⊢
    omega
  | false => rfl

end Binary64

open Binary64

namespace NumberTest

def reach (x target tolerance : Binary64) : Binary64 :=
  tolerance.add (epsilon.mul ((x.abs.max target.abs).max .one))

theorem within_eq_le_reach (x target tolerance : Binary64) :
    within x target tolerance = (x.sub target).abs.le (reach x target tolerance) := rfl

theorem reach_of_infinite {x target : Binary64} (hx : x ≠ nan) (htarget : target ≠ nan)
    (hinfinite : x.isFinite = false ∨ target.isFinite = false) (s : Bool) (t : Nat) :
    reach x target (.finite s t) = infinite false := by
  cases x with
  | nan => exact absurd rfl hx
  | infinite s' =>
    cases target with
    | nan => exact absurd rfl htarget
    | infinite s'' => rfl
    | finite s'' u => rfl
  | finite s' u =>
    cases target with
    | nan => exact absurd rfl htarget
    | infinite s'' => rfl
    | finite s'' u' => rcases hinfinite with h | h <;> cases h

/-- Where numbers are too large to be finite, all that is left of them is their signs. -/
theorem within_of_infinite {x target : Binary64} (hx : x ≠ nan) (htarget : target ≠ nan)
    (hinfinite : x.isFinite = false ∨ target.isFinite = false) (s : Bool) (t : Nat) :
    within x target (.finite s t) = true ↔ x ≠ target := by
  rw [within_eq_le_reach, reach_of_infinite hx htarget hinfinite]
  cases x with
  | nan => exact absurd rfl hx
  | infinite s' =>
    cases target with
    | nan => exact absurd rfl htarget
    | infinite s'' => cases s' <;> cases s'' <;> decide
    | finite s'' u => simp [sub, neg, add, Binary64.abs, le]
  | finite s' u =>
    cases target with
    | nan => exact absurd rfl htarget
    | infinite s'' => simp [sub, neg, add, Binary64.abs, le]
    | finite s'' u' => rcases hinfinite with h | h <;> cases h

theorem exists_reach_finite {u u' : Nat} (hu : u < limit) (hdigits : 2 ^ excess u ∣ u)
    (hu' : u' < limit) (hdigits' : 2 ^ excess u' ∣ u') (s s' : Bool) {b : Bool} {t : Nat}
    (ht : signed b t = t) :
    ∃ w, u ⊔ u' ⊔ scale = 2 ^ 52 * w ∧
      reach (.finite s u) (.finite s' u') (.finite b t) = ofUnits false (t + w) 1 := by
  have hlimit : u ⊔ u' ⊔ scale < limit :=
    sup_lt_iff.2 ⟨sup_lt_iff.2 ⟨hu, hu'⟩, scale_lt_limit⟩
  have hlargest : 2 ^ excess (u ⊔ u' ⊔ scale) ∣ u ⊔ u' ⊔ scale := by
    refine sup_ind (p := fun n => 2 ^ excess n ∣ n) _ _ ?_ two_pow_excess_dvd_scale
    exact sup_ind (p := fun n => 2 ^ excess n ∣ n) _ _ hdigits hdigits'
  obtain ⟨w, hw, hpos, hwlimit, hwdigits⟩ := exists_eq_mul le_sup_right hlimit hlargest
  refine ⟨w, hw, ?_⟩
  have hsum : signed b t + signed false w = ((t + w : Nat) : ℤ) := by
    rw [ht]
    simp [signed]
  rw [reach, Binary64.abs, Binary64.abs, max_finite_eq, one, max_finite_eq, hw,
    epsilon_mul hwlimit hwdigits, add_finite, hsum, ofSum_of_pos _ (by omega), Int.natAbs_natCast]

theorem abs_distance_sub_le (m n : ℤ) (q p : ℚ) :
    |(|(m : ℚ) - n| - |q - p| * scale)| ≤ |(m : ℚ) - q * scale| + |(n : ℚ) - p * scale| := by
  have hscale : |q - p| * scale = |(q - p) * scale| := by rw [abs_mul, abs_of_pos cast_scale_pos]
  calc |(|(m : ℚ) - n| - |q - p| * scale)|
      ≤ |((m : ℚ) - n) - (q - p) * scale| := by rw [hscale]; exact abs_abs_sub_abs_le ..
    _ = |((m : ℚ) - q * scale) - (n - p * scale)| := by ring_nf
    _ ≤ _ := abs_sub ..

theorem le_of_ofUnits_le {m n : Nat} (hle : (ofUnits false m 1).le (ofUnits false n 1) = true)
    (hfinite : (ofUnits false n 1).isFinite = true) : roundUnits m 1 ≤ roundUnits n 1 := by
  simp only [ofUnits] at hle hfinite
  split at hfinite
  next hn =>
    rw [if_pos hn] at hle
    split at hle
    · simpa [le_finite, signed] using hle
    · cases hle
  next => cases hfinite

theorem abs_roundUnits_one_sub_le {n : Nat} (h : (2 : ℚ) ^ 52 ≤ n) :
    |(roundUnits n 1 : ℚ) - n| ≤ n / 2 ^ 53 := by
  have hnear := (abs_roundUnits_sub_le n Nat.one_pos).1
  rwa [Nat.cast_one, div_one, slack_eq h] at hnear

section

variable {p q : ℚ} {s s' b : Bool} {u u' t : Nat}

/-- Two numbers within the tolerance are found to be. The roundings took each of them no further
than half of what the tolerance is widened by. -/
theorem within_finite (hx : Rounded q (.finite s u)) (htarget : Rounded p (.finite s' u'))
    (ht : signed b t = t) (h : |q - p| * scale ≤ t) :
    within (.finite s u) (.finite s' u') (.finite b t) = true := by
  obtain ⟨w, hw, hreach⟩ :=
    exists_reach_finite hx.lt_limit hx.two_pow_excess_dvd htarget.lt_limit
      htarget.two_pow_excess_dvd s s' ht
  obtain ⟨-, -, -, -, hnear⟩ := hx
  obtain ⟨-, -, -, -, hnear'⟩ := htarget
  have hhalf {n : Nat} (hn : n ≤ u ⊔ u' ⊔ scale) : slack n ≤ w / 2 := by
    have hle : (n : ℚ) ≤ 2 ^ 52 * w := by
      rw [hw] at hn
      exact_mod_cast hn
    have hlarge : (2 : ℚ) ^ 52 ≤ 2 ^ 52 * w := by
      have hscale : scale ≤ 2 ^ 52 * w := hw ▸ le_sup_right
      exact (le_scale (by norm_num)).trans (by exact_mod_cast hscale)
    calc slack n ≤ slack (2 ^ 52 * w) := slack_mono hle
      _ = w / 2 := by rw [slack_eq hlarge]; ring
  have hu : slack u ≤ w / 2 := hhalf (le_sup_left.trans le_sup_left)
  have hu' : slack u' ≤ w / 2 := hhalf (le_sup_right.trans le_sup_left)
  have hdistance : |(signed s u : ℚ) - signed s' u'| ≤ t + w := by
    have hmoved := (abs_le.1 (abs_distance_sub_le (signed s u) (signed s' u') q p)).2
    linarith
  have hunits : (signed s u - signed s' u').natAbs ≤ t + w := by
    have hcast : ((signed s u - signed s' u').natAbs : ℚ) ≤ ((t + w : Nat) : ℚ) := by
      rw [Nat.cast_natAbs]
      push_cast
      exact hdistance
    exact_mod_cast hcast
  rw [within_eq_le_reach, hreach, abs_sub_finite]
  exact ofUnits_mono hunits 1

theorem abs_sub_le_of_rounded {m : ℚ} (hx : Rounded q (.finite s u)) (hlarge : 2 ^ 52 ≤ m)
    (hm : |q| * scale ≤ m) :
    |(signed s u : ℚ) - q * scale| ≤ m / 2 ^ 53 ∧ (u : ℚ) ≤ m + m / 2 ^ 53 := by
  obtain ⟨-, -, -, hnear, -⟩ := hx
  have hmoved : |(signed s u : ℚ) - q * scale| ≤ m / 2 ^ 53 :=
    (hnear.trans (slack_mono hm)).trans_eq (slack_eq hlarge)
  refine ⟨hmoved, ?_⟩
  calc (u : ℚ) = |(signed s u : ℚ)| := by cases s <;> simp [signed]
    _ = |q * scale + (signed s u - q * scale)| := by ring_nf
    _ ≤ |q * scale| + |(signed s u : ℚ) - q * scale| := abs_add_le ..
    _ ≤ m + m / 2 ^ 53 := by
      rw [abs_mul, abs_of_pos cast_scale_pos]
      exact add_le_add hm hmoved

theorem two_pow_le_of_scale_le {m : ℚ} (h : (scale : ℚ) ≤ m) : (2 : ℚ) ^ 106 ≤ m :=
  (le_scale le_rfl).trans h

theorem widening_le {m : ℚ} {w : Nat} (hx : Rounded q (.finite s u))
    (htarget : Rounded p (.finite s' u')) (hone : (scale : ℚ) ≤ m) (hq : |q| * scale ≤ m)
    (hp : |p| * scale ≤ m) (hw : u ⊔ u' ⊔ scale = 2 ^ 52 * w) :
    (2 : ℚ) ^ 106 ≤ 2 ^ 52 * w ∧ 2 ^ 52 * (w : ℚ) ≤ m + m / 2 ^ 53 := by
  have hlarge := two_pow_le_of_scale_le hone
  have hscale : scale ≤ 2 ^ 52 * w := hw ▸ le_sup_right
  refine ⟨two_pow_le_of_scale_le (by exact_mod_cast hscale), ?_⟩
  have hu := (abs_sub_le_of_rounded hx (by linarith) hq).2
  have hu' := (abs_sub_le_of_rounded htarget (by linarith) hp).2
  have hsup : ((u ⊔ u' ⊔ scale : Nat) : ℚ) ≤ m + m / 2 ^ 53 := by
    rw [Nat.cast_max, Nat.cast_max]
    exact sup_le (sup_le hu hu') (by linarith)
  rw [hw] at hsup
  exact_mod_cast hsup

/-- Two numbers found to be within the tolerance, if it is still finite when it is widened, are no
further beyond it than by a few of the last digits of the larger. -/
theorem le_of_within_finite {m : ℚ} (hx : Rounded q (.finite s u))
    (htarget : Rounded p (.finite s' u')) (hone : (scale : ℚ) ≤ m) (hq : |q| * scale ≤ m)
    (hp : |p| * scale ≤ m) (ht : signed b t = t)
    (hfinite : (reach (.finite s u) (.finite s' u') (.finite b t)).isFinite = true)
    (hwithin : within (.finite s u) (.finite s' u') (.finite b t) = true) :
    |q - p| * scale ≤ t + m / 2 ^ 50 := by
  have hlarge := two_pow_le_of_scale_le hone
  have hmoved := (abs_sub_le_of_rounded hx (by linarith) hq).1
  have hmoved' := (abs_sub_le_of_rounded htarget (by linarith) hp).1
  have hkept := (abs_le.1 (abs_distance_sub_le (signed s u) (signed s' u') q p)).1
  have hdistance : |q - p| * scale ≤ 2 * m := by
    calc |q - p| * scale ≤ (|q| + |p|) * scale :=
          mul_le_mul_of_nonneg_right (abs_sub ..) cast_scale_pos.le
      _ ≤ 2 * m := by linarith
  obtain ⟨w, hw, hreach⟩ :=
    exists_reach_finite hx.lt_limit hx.two_pow_excess_dvd htarget.lt_limit
      htarget.two_pow_excess_dvd s s' ht
  obtain ⟨hwlarge, hwidened⟩ := widening_le hx htarget hone hq hp hw
  rw [hreach] at hfinite
  rw [within_eq_le_reach, abs_sub_finite, hreach] at hwithin
  have hrounded : (roundUnits (signed s u - signed s' u').natAbs 1 : ℚ) ≤ roundUnits (t + w) 1 := by
    exact_mod_cast le_of_ofUnits_le hwithin hfinite
  have hunits : ((signed s u - signed s' u').natAbs : ℚ) = |(signed s u : ℚ) - signed s' u'| := by
    rw [Nat.cast_natAbs]
    push_cast
    rfl
  have ht' : (0 : ℚ) ≤ t := Nat.cast_nonneg t
  by_contra hfar
  -- all that was rounded is so large that each rounding took it one part in `2 ^ 53` at most
  have hround := (abs_le.1 (abs_roundUnits_one_sub_le (n := (signed s u - signed s' u').natAbs)
    (by rw [hunits]; linarith))).1
  have hround' := (abs_le.1 (abs_roundUnits_one_sub_le (n := t + w) (by push_cast; linarith))).2
  rw [hunits] at hround
  push_cast at hround'
  linarith

/-- The widened tolerance is finite unless the tolerance or one of the numbers is close to where
finite numbers end. -/
theorem isFinite_reach_finite {m : ℚ} (hx : Rounded q (.finite s u))
    (htarget : Rounded p (.finite s' u')) (hone : (scale : ℚ) ≤ m) (hq : |q| * scale ≤ m)
    (hp : |p| * scale ≤ m) (ht : signed b t = t) (hlimit : t + m < roundingLimit) :
    (reach (.finite s u) (.finite s' u') (.finite b t)).isFinite = true := by
  have hlarge := two_pow_le_of_scale_le hone
  obtain ⟨w, hw, hreach⟩ :=
    exists_reach_finite hx.lt_limit hx.two_pow_excess_dvd htarget.lt_limit
      htarget.two_pow_excess_dvd s s' ht
  obtain ⟨-, hwidened⟩ := widening_le hx htarget hone hq hp hw
  have hbelow : t + w < roundingLimit := by
    have hcast : ((t + w : Nat) : ℚ) < roundingLimit := by
      push_cast
      linarith
    exact_mod_cast hcast
  have hrounded : roundUnits (t + w) 1 < limit :=
    roundUnits_lt_limit Nat.one_pos (by rwa [Nat.mul_one])
  rw [hreach, ofUnits]
  simp only [if_pos hrounded, isFinite]

theorem le_largest_mul_scale (q p : ℚ) :
    (scale : ℚ) ≤ (1 ⊔ (|q| ⊔ |p|)) * scale ∧ |q| * scale ≤ (1 ⊔ (|q| ⊔ |p|)) * scale ∧
      |p| * scale ≤ (1 ⊔ (|q| ⊔ |p|)) * scale :=
  ⟨le_mul_of_one_le_left cast_scale_pos.le le_sup_left,
    mul_le_mul_of_nonneg_right (le_sup_left.trans le_sup_right) cast_scale_pos.le,
    mul_le_mul_of_nonneg_right (le_sup_right.trans le_sup_right) cast_scale_pos.le⟩

end

section

variable {p q : ℚ} {x target tolerance : Binary64} (hx : Rounded q x)
  (htarget : Rounded p target) (hfinite : tolerance.isFinite = true)
  (htolerance : Binary64.zero.le tolerance = true)

include hx htarget hfinite htolerance

/-- What lies within the tolerance is found to, but for two numbers that both become infinite and
are not told apart from opposite ones then: their difference is no number. -/
theorem within_iff_of_abs_sub_le (h : |q - p| ≤ tolerance.toRat) :
    within x target tolerance = true ↔
      ¬ (overflow ≤ |p| ∧ overflow ≤ |q| ∧ (p < 0 ↔ q < 0)) := by
  obtain ⟨b, t, rfl, ht⟩ := exists_units hfinite htolerance
  by_cases hboth : |q| < overflow ∧ |p| < overflow
  · obtain ⟨s, u, rfl⟩ := exists_eq_finite (hx.isFinite_iff.2 hboth.1)
    obtain ⟨s', u', rfl⟩ := exists_eq_finite (htarget.isFinite_iff.2 hboth.2)
    rw [← mul_le_mul_iff_left₀ cast_scale_pos, toRat_finite_mul_scale ht] at h
    exact iff_of_true (within_finite hx htarget ht h) fun hover =>
      absurd hboth.1 (not_lt.2 hover.2.1)
  · have hinfinite : x.isFinite = false ∨ target.isFinite = false := by
      rw [← Bool.not_eq_true, ← Bool.not_eq_true, hx.isFinite_iff, htarget.isFinite_iff]
      exact not_and_or.1 hboth
    rw [within_of_infinite hx.ne_nan htarget.ne_nan hinfinite, not_iff_not]
    constructor
    · rintro rfl
      rw [or_self, ← Bool.not_eq_true] at hinfinite
      have hq := not_lt.1 (mt hx.isFinite_iff.2 hinfinite)
      have hp := not_lt.1 (mt htarget.isFinite_iff.2 hinfinite)
      have hsigns := (htarget.eq_infinite hp).symm.trans (hx.eq_infinite hq)
      exact ⟨hp, hq, decide_eq_decide.1 (infinite.inj hsigns)⟩
    · rintro ⟨hp, hq, hsigns⟩
      rw [hx.eq_infinite hq, htarget.eq_infinite hp, decide_eq_decide.2 hsigns]

theorem abs_sub_le_of_within (hreach : (reach x target tolerance).isFinite = true)
    (hwithin : within x target tolerance = true) :
    |q - p| ≤ tolerance.toRat + (1 ⊔ (|q| ⊔ |p|)) / 2 ^ 50 := by
  obtain ⟨b, t, rfl, ht⟩ := exists_units hfinite htolerance
  have hboth : x.isFinite = true ∧ target.isFinite = true := by
    by_contra hinfinite
    rw [not_and_or, Bool.not_eq_true, Bool.not_eq_true] at hinfinite
    rw [reach_of_infinite hx.ne_nan htarget.ne_nan hinfinite] at hreach
    cases hreach
  obtain ⟨s, u, rfl⟩ := exists_eq_finite hboth.1
  obtain ⟨s', u', rfl⟩ := exists_eq_finite hboth.2
  obtain ⟨hone, hq, hp⟩ := le_largest_mul_scale q p
  have hfar := le_of_within_finite hx htarget hone hq hp ht hreach hwithin
  rw [← mul_le_mul_iff_left₀ cast_scale_pos, add_mul, toRat_finite_mul_scale ht, div_mul_eq_mul_div]
  exact hfar

theorem isFinite_reach (h : tolerance.toRat + (1 ⊔ (|q| ⊔ |p|)) < overflow) :
    (reach x target tolerance).isFinite = true := by
  obtain ⟨b, t, rfl, ht⟩ := exists_units hfinite htolerance
  obtain ⟨hone, hq, hp⟩ := le_largest_mul_scale q p
  have hlimit : (t : ℚ) + (1 ⊔ (|q| ⊔ |p|)) * scale < roundingLimit := by
    rw [← mul_lt_mul_iff_left₀ cast_scale_pos, add_mul, toRat_finite_mul_scale ht] at h
    rwa [roundingLimit_eq]
  have hsmall : (1 ⊔ (|q| ⊔ |p|)) * (scale : ℚ) < roundingLimit := by
    linarith [Nat.cast_nonneg (α := ℚ) t]
  have hfinite {r : ℚ} (hr : |r| * scale ≤ (1 ⊔ (|q| ⊔ |p|)) * scale) : |r| < overflow := by
    rw [← not_le, ← roundingLimit_le_iff, not_le]
    exact hr.trans_lt hsmall
  obtain ⟨s, u, rfl⟩ := exists_eq_finite (hx.isFinite_iff.2 (hfinite hq))
  obtain ⟨s', u', rfl⟩ := exists_eq_finite (htarget.isFinite_iff.2 (hfinite hp))
  exact isFinite_reach_finite hx htarget hone hq hp ht hlimit

end

end NumberTest

end DocMatch
