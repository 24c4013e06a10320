import Mathlib
import DocMatch.Proofs.Sequence
import DocMatch.Timestamp

/-!
Timestamps as instants. An instant is a number of nanoseconds since the epoch. It follows from what
a timestamp writes, the offset taken off, and the distance between two timestamps is the distance of
their instants unless one of them is a leap second. The days of a calendar are numbered one after
another, through the ends of months and years, and those of years of four digits are so few that no
distance between them is too long. Main statements: `instant_timestamp`, `since_eq_sub`,
`dayNumber_nextDay`, `dayNumber_nextMonth` and `dayNumber_nextYear`.
-/

namespace DocMatch

namespace Timestamp

theorem nanosPerSecond_pos : 0 < nanosPerSecond := by
  decide

def instant (t : Timestamp) : ℤ := t.unix * nanosPerSecond + t.nanos

/-- Leap seconds aside, a distance is a difference of instants. -/
theorem since_eq_sub {t u : Timestamp} (ht : t.isLeapSecond = false) (hu : u.isLeapSecond = false) :
    t.since u = t.instant - u.instant := by
  simp only [since, ht, hu, instant, if_false, Bool.false_eq_true, ite_self, add_zero]
  ring

theorem unix_ofLocal (day : ℤ) (second nanos : Nat) (offset : ℤ) :
    (ofLocal day second nanos offset).unix = day * 86400 + second - offset := by
  have hnonneg : 0 ≤ (day * 86400 + second - offset).fmod 86400 :=
    Int.fmod_nonneg_of_pos _ (by decide)
  simp only [unix, ofLocal]
  rw [Int.toNat_of_nonneg hnonneg]
  exact Int.fdiv_mul_add_fmod ..

structure Civil where
  year : Nat
  month : Nat
  day : Nat
  hour : Nat
  minute : Nat
  second : Nat
  nanos : Nat
  offset : ℤ
  year_lt : year < 10000
  isDate : isDate year month day = true
  hour_le : hour ≤ 23
  minute_le : minute ≤ 59
  second_le : second ≤ 60
  nanos_lt : nanos < nanosPerSecond
  offset_lt : |offset| < 86400

namespace Civil

variable (c : Civil)

def secondOfDay : Nat := c.hour * 3600 + c.minute * 60 + c.second

/-- Seconds since the epoch, as if no leap second had ever been. -/
def unix : ℤ := dayNumber c.year c.month c.day * 86400 + c.secondOfDay - c.offset

def instant : ℤ := c.unix * nanosPerSecond + c.nanos

/-- Second 60 is second 59 with a second's nanoseconds more. -/
def timestamp : Timestamp :=
  ofLocal (dayNumber c.year c.month c.day)
    (c.hour * 3600 + c.minute * 60 + (if c.second = 60 then 59 else c.second))
    (c.nanos + (if c.second = 60 then nanosPerSecond else 0)) c.offset

theorem instant_timestamp : c.timestamp.instant = c.instant := by
  rw [Timestamp.instant, timestamp, unix_ofLocal, instant, unix, secondOfDay]
  simp only [ofLocal]
  split
  next h =>
    rw [h]
    push_cast
    ring
  next =>
    push_cast
    ring

theorem isLeapSecond_timestamp : c.timestamp.isLeapSecond = decide (c.second = 60) := by
  have hnanos := c.nanos_lt
  simp only [isLeapSecond, timestamp, ofLocal]
  split
  next h => rw [decide_eq_true h, decide_eq_true (by omega)]
  next h => rw [decide_eq_false h, decide_eq_false (by omega)]

end Civil

theorem daysInMonth_le (year month : Nat) : daysInMonth year month ≤ 31 := by
  unfold daysInMonth
  split_ifs <;> omega

theorem daysBeforeMonth_le (year month : Nat) : daysBeforeMonth year month ≤ 31 * (month - 1) := by
  unfold daysBeforeMonth
  induction month - 1 with
  | zero => exact Nat.le_refl _
  | succ n ih =>
    have hdays := daysInMonth_le year (n + 1)
    rw [List.range_succ, List.foldl_append, List.foldl_cons, List.foldl_nil]
    omega

theorem dayNumber_nextDay (year month : Nat) {day : Nat} (h : 1 ≤ day) :
    dayNumber year month (day + 1) = dayNumber year month day + 1 := by
  simp only [dayNumber]
  omega

theorem daysBeforeMonth_succ (year : Nat) {month : Nat} (h : 1 ≤ month) :
    daysBeforeMonth year (month + 1) = daysBeforeMonth year month + daysInMonth year month := by
  obtain ⟨n, rfl⟩ : ∃ n, month = n + 1 := ⟨month - 1, by omega⟩
  simp only [daysBeforeMonth, Nat.add_sub_cancel, List.range_succ, List.foldl_append,
    List.foldl_cons, List.foldl_nil]

theorem dayNumber_nextMonth (year : Nat) {month : Nat} (h : 1 ≤ month) :
    dayNumber year (month + 1) 1 = dayNumber year month (daysInMonth year month) + 1 := by
  have hdays : 1 ≤ daysInMonth year month := by
    unfold daysInMonth
    split_ifs <;> omega
  simp only [dayNumber, daysBeforeMonth_succ year h]
  omega

theorem dayNumber_nextYear (year : Nat) :
    dayNumber (year + 1) 1 1 = dayNumber year 12 31 + 1 := by
  have hmonths : daysBeforeMonth year 12 = if isLeapYear year then 335 else 334 := by
    simp only [daysBeforeMonth, daysInMonth, List.range, List.range.loop, List.foldl]
    cases isLeapYear year <;> rfl
  have hyear : daysBeforeYear (year + 1) =
      daysBeforeYear year + if isLeapYear year then 366 else 365 := by
    simp only [daysBeforeYear, isLeapYear, Bool.and_eq_true, Bool.or_eq_true, decide_eq_true_eq]
    split_ifs <;> omega
  have hfirst : daysBeforeMonth (year + 1) 1 = 0 := rfl
  rw [dayNumber, dayNumber, hmonths, hyear, hfirst]
  split_ifs <;> omega

example : dayNumber 1970 1 1 = 0 := by decide

theorem abs_dayNumber_lt {year month day : Nat} (hyear : year < 10000)
    (hdate : isDate year month day = true) : |dayNumber year month day| < 4000000 := by
  simp only [isDate, Bool.and_eq_true, decide_eq_true_eq] at hdate
  obtain ⟨⟨⟨-, hmonth⟩, -⟩, hday⟩ := hdate
  have hdays := daysInMonth_le year month
  have hbefore := daysBeforeMonth_le year month
  have hepoch : daysBeforeYear 1970 = 719528 := by decide
  rw [dayNumber, hepoch, daysBeforeYear, abs_lt]
  omega

theorem Civil.abs_unix_timestamp_lt (c : Civil) : |c.timestamp.unix| < 2 ^ 39 := by
  have hday := abs_lt.1 (abs_dayNumber_lt c.year_lt c.isDate)
  have hoffset := abs_lt.1 c.offset_lt
  have hhour := c.hour_le
  have hminute := c.minute_le
  have hsecond := c.second_le
  rw [timestamp, unix_ofLocal, abs_lt]
  split_ifs <;> omega

theorem Civil.nanos_timestamp_lt (c : Civil) : c.timestamp.nanos < 2 * nanosPerSecond := by
  have hnanos := c.nanos_lt
  simp only [timestamp, ofLocal]
  split_ifs <;> omega

/-- Leap seconds included, no distance is out of the range of 64 bits of seconds. -/
theorem Civil.abs_since_lt (b c : Civil) :
    |b.timestamp.since c.timestamp| < 2 ^ 63 * nanosPerSecond := by
  have hb := abs_lt.1 b.abs_unix_timestamp_lt
  have hc := abs_lt.1 c.abs_unix_timestamp_lt
  have hbnanos := b.nanos_timestamp_lt
  have hcnanos := c.nanos_timestamp_lt
  have hunit : nanosPerSecond = 1000000000 := rfl
  simp only [since, hunit, abs_lt] at hbnanos hcnanos ⊢
  split_ifs <;> omega

end Timestamp

end DocMatch
