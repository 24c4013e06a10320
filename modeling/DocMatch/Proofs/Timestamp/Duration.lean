import DocMatch.Proofs.Timestamp

/-!
Durations in words of 64 bits. A duration is kept as whole seconds and the nanoseconds past them,
and what does not fit a word is no duration. Deltas of up to 63 bits of milliseconds and distances
of timestamps fit, and so do their opposites, so a distance is compared with a delta on both sides
without fail. Main statement: `within?_between?`.
-/

namespace DocMatch

/-- Seconds rounded down, and the nanoseconds left over. -/
structure Duration where
  seconds : ℤ
  nanos : Nat
  nanos_lt : nanos < Timestamp.nanosPerSecond
  deriving DecidableEq

namespace Duration

open Timestamp (nanosPerSecond nanosPerSecond_pos)

def word? (n : ℤ) : Option ℤ := if -2 ^ 63 ≤ n ∧ n < 2 ^ 63 then some n else none

def toNanos (d : Duration) : ℤ := d.seconds * nanosPerSecond + d.nanos

theorem toNanos_eq (d : Duration) : d.toNanos = d.seconds * 1000000000 + d.nanos := rfl

theorem cast_nanosPerSecond_pos : (0 : ℤ) < nanosPerSecond :=
  Int.natCast_pos.2 nanosPerSecond_pos

def ofNanos? (n : ℤ) : Option Duration :=
  (word? (n.fdiv nanosPerSecond)).map fun seconds =>
    { seconds
      nanos := (n.fmod nanosPerSecond).toNat
      nanos_lt := by
        have hlt := Int.fmod_lt_of_pos n cast_nanosPerSecond_pos
        have hnonneg := Int.fmod_nonneg_of_pos n cast_nanosPerSecond_pos
        omega }

def ofMillis? (milliseconds : ℤ) : Option Duration :=
  (word? milliseconds).bind fun n => ofNanos? (n * 1000000)

/-- The opposite. Where nanoseconds are left over, they are those up to the second before. -/
def neg? (d : Duration) : Option Duration :=
  (word? (-d.seconds)).bind fun opposite =>
    if h : d.nanos = 0 then some { seconds := opposite, nanos := 0, nanos_lt := nanosPerSecond_pos }
    else
      (word? (opposite - 1)).map fun seconds =>
        { seconds, nanos := nanosPerSecond - d.nanos
          nanos_lt := by
            have hpos := nanosPerSecond_pos
            omega }

def le (d e : Duration) : Bool :=
  d.seconds < e.seconds || d.seconds = e.seconds && d.nanos ≤ e.nanos

theorem le_iff {d e : Duration} : d.le e = true ↔ d.toNanos ≤ e.toNanos := by
  have hd : d.nanos < 1000000000 := d.nanos_lt
  have he : e.nanos < 1000000000 := e.nanos_lt
  simp only [le, toNanos_eq, Bool.or_eq_true, Bool.and_eq_true, decide_eq_true_eq]
  omega

theorem exists_ofNanos? {n : ℤ} (h : |n| < 2 ^ 63 * nanosPerSecond) :
    ∃ d, ofNanos? n = some d ∧ d.toNanos = n := by
  have hsum : n.fdiv nanosPerSecond * 1000000000 + n.fmod nanosPerSecond = n :=
    Int.fdiv_mul_add_fmod ..
  have hlt : n.fmod nanosPerSecond < 1000000000 := Int.fmod_lt_of_pos n cast_nanosPerSecond_pos
  have hnonneg := Int.fmod_nonneg_of_pos n cast_nanosPerSecond_pos
  have hbounds : -(2 ^ 63 * 1000000000) < n ∧ n < 2 ^ 63 * 1000000000 := abs_lt.1 h
  have hword : word? (n.fdiv nanosPerSecond) = some (n.fdiv nanosPerSecond) :=
    if_pos (by omega)
  refine ⟨_, by rw [ofNanos?, hword]; rfl, ?_⟩
  simp only [toNanos_eq]
  omega

theorem exists_neg? {d : Duration} (h : |d.seconds| < 2 ^ 62) :
    ∃ e, d.neg? = some e ∧ e.toNanos = -d.toNanos := by
  have hbounds := abs_lt.1 h
  have hunit : nanosPerSecond = 1000000000 := rfl
  have hlt := d.nanos_lt
  have hword : word? (-d.seconds) = some (-d.seconds) := if_pos (by omega)
  have hword' : word? (-d.seconds - 1) = some (-d.seconds - 1) := if_pos (by omega)
  rw [neg?, hword, Option.bind_some]
  split
  next hzero =>
    refine ⟨_, rfl, ?_⟩
    simp only [toNanos_eq, hzero]
    omega
  next =>
    rw [hword']
    refine ⟨_, rfl, ?_⟩
    simp only [toNanos_eq, hunit]
    omega

theorem exists_ofMillis? {n : Nat} (h : n < 2 ^ 63) :
    ∃ d, ofMillis? n = some d ∧ d.toNanos = n * 1000000 ∧ |d.seconds| < 2 ^ 62 := by
  have hword : word? n = some (n : ℤ) := if_pos (by omega)
  have hbounds : |(n : ℤ) * 1000000| < 2 ^ 63 * 1000000000 := by
    rw [abs_lt]
    omega
  obtain ⟨d, hd, hnanos⟩ := exists_ofNanos? hbounds
  have hlt : d.nanos < 1000000000 := d.nanos_lt
  refine ⟨d, by rw [ofMillis?, hword, Option.bind_some, hd], hnanos, ?_⟩
  rw [toNanos_eq] at hnanos
  rw [abs_lt]
  omega

def between? (t u : Timestamp) : Option Duration := ofNanos? (t.since u)

def within? (difference delta : Duration) : Option Bool :=
  delta.neg?.map fun opposite => opposite.le difference && difference.le delta

/-- Timestamps that can be read are so near to one another that no delta is too large for them. -/
theorem exists_between? (b t : Timestamp.Civil) :
    ∃ d, between? b.timestamp t.timestamp = some d ∧
      d.toNanos = b.timestamp.since t.timestamp :=
  exists_ofNanos? (b.abs_since_lt t)

theorem within?_between? (b t : Timestamp.Civil) {milliseconds : Nat}
    (h : milliseconds < 2 ^ 63) :
    ∃ difference delta, between? b.timestamp t.timestamp = some difference ∧
      ofMillis? milliseconds = some delta ∧
      within? difference delta =
        some (decide ((b.timestamp.since t.timestamp).natAbs ≤ milliseconds * 1000000)) := by
  obtain ⟨difference, hdifference, hexact⟩ := exists_between? b t
  obtain ⟨delta, hdelta, hnanos, hseconds⟩ := exists_ofMillis? h
  obtain ⟨opposite, hopposite, hneg⟩ := exists_neg? hseconds
  refine ⟨difference, delta, hdifference, hdelta, ?_⟩
  rw [within?, hopposite, Option.map_some, Option.some.injEq, Bool.eq_iff_iff, Bool.and_eq_true,
    le_iff, le_iff, hneg, hnanos, hexact, decide_eq_true_eq]
  omega

end Duration

end DocMatch
