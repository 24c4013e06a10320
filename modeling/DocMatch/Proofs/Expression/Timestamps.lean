import DocMatch.Expression.StringTest
import DocMatch.Proofs.Expression.Parse
import DocMatch.Proofs.Timestamp.Duration
import DocMatch.Proofs.Timestamp.Reading

/-!
Demands to lie within some milliseconds of an instant. They are written as calls with a timestamp
and digits, and they are exact: the answer is that of comparing whole numbers of nanoseconds,
however the timestamps on either side are written, and no step on the way to it leaves the range of
its words. Main statement: `timestamp_exact`.
-/

namespace DocMatch

open Timestamp (Civil Written)

namespace StringTest

/-- The demand to lie within `delta` milliseconds of what `target` writes. -/
structure ExactWithin (target : Civil) (delta : Nat) : Prop where
  /-- Only a text that is no timestamp is an error. -/
  fails (actual : String) (error : MatchError) :
    holds actual (.timestamp target.timestamp delta) = .error error ↔
      ∃ fault, Timestamp.parse actual = .error fault ∧ error = .invalidTimestamp actual fault
  /-- Bounds are included on both sides. -/
  answers {actual : String} {b : Civil} :
    Written b (Bytes.ofString actual) → b.second ≠ 60 → target.second ≠ 60 →
    holds actual (.timestamp target.timestamp delta) =
      .ok (decide (|b.instant - target.instant| ≤ delta * 1000000))
  /-- In words of 64 bits the answer is the same, leap seconds included. -/
  computed {actual : String} {b : Civil} :
    Written b (Bytes.ofString actual) →
    ∃ difference bound answer, Duration.between? b.timestamp target.timestamp = some difference ∧
      Duration.ofMillis? delta = some bound ∧ Duration.within? difference bound = some answer ∧
      holds actual (.timestamp target.timestamp delta) = .ok answer
  /-- Another way to write the same instants is no difference. -/
  rewritten {actual actual' : String} {b b' target' : Civil} :
    Written b (Bytes.ofString actual) → Written b' (Bytes.ofString actual') →
    b.second ≠ 60 → b'.second ≠ 60 → target.second ≠ 60 → target'.second ≠ 60 →
    b.instant = b'.instant → target.instant = target'.instant →
    holds actual' (.timestamp target'.timestamp delta) =
      holds actual (.timestamp target.timestamp delta)
  symmetric {actual actual' : String} {b : Civil} :
    Written b (Bytes.ofString actual) → Written target (Bytes.ofString actual') →
    b.second ≠ 60 → target.second ≠ 60 →
    holds actual' (.timestamp b.timestamp delta) =
      holds actual (.timestamp target.timestamp delta)
  monotone {actual : String} {delta' : Nat} :
    delta ≤ delta' → holds actual (.timestamp target.timestamp delta) = .ok true →
    holds actual (.timestamp target.timestamp delta') = .ok true

theorem holds_timestamp_eq_error_iff {actual : String} {t : Timestamp} {delta : Nat}
    {error : MatchError} :
    holds actual (.timestamp t delta) = .error error ↔
      ∃ fault, Timestamp.parse actual = .error fault ∧ error = .invalidTimestamp actual fault := by
  rw [holds, map_eq_error_iff, Expression.parseTimestamp]
  cases Timestamp.parse actual with
  | ok u => simp [Except.mapError]
  | error fault => simp [Except.mapError, eq_comm]

theorem holds_of_written {actual : String} {b : Civil} (hb : Written b (Bytes.ofString actual))
    (t : Timestamp) (delta : Nat) :
    holds actual (.timestamp t delta) =
      .ok (decide ((b.timestamp.since t).natAbs ≤ delta * 1000000)) := by
  have hparse : Timestamp.parse actual = .ok b.timestamp := Timestamp.ofBytes_complete hb
  rw [holds, Expression.parseTimestamp, hparse]
  rfl

theorem holds_of_instants {actual : String} {b target : Civil}
    (hb : Written b (Bytes.ofString actual)) (hleap : b.second ≠ 60) (hleap' : target.second ≠ 60)
    (delta : Nat) :
    holds actual (.timestamp target.timestamp delta) =
      .ok (decide (|b.instant - target.instant| ≤ delta * 1000000)) := by
  have hnot {c : Civil} (hc : c.second ≠ 60) : c.timestamp.isLeapSecond = false := by
    rw [c.isLeapSecond_timestamp, decide_eq_false hc]
  rw [holds_of_written hb, Timestamp.since_eq_sub (hnot hleap) (hnot hleap'),
    Civil.instant_timestamp, Civil.instant_timestamp, Except.ok.injEq, decide_eq_decide,
    Int.abs_eq_natAbs]
  exact_mod_cast Iff.rfl

theorem holds_mono {actual : String} {t : Timestamp} {delta delta' : Nat} (hle : delta ≤ delta')
    (h : holds actual (.timestamp t delta) = .ok true) :
    holds actual (.timestamp t delta') = .ok true := by
  rw [holds, map_eq_ok_iff] at h ⊢
  obtain ⟨u, hu, hwithin⟩ := h
  rw [decide_eq_true_eq] at hwithin
  exact ⟨u, hu, decide_eq_true (hwithin.trans (Nat.mul_le_mul_right _ hle))⟩

theorem exactWithin (target : Civil) {delta : Nat} (hdelta : delta < 2 ^ 63) :
    ExactWithin target delta where
  fails _ _ := holds_timestamp_eq_error_iff
  answers hb hleap hleap' := holds_of_instants hb hleap hleap' delta
  computed {actual b} hb := by
    obtain ⟨difference, bound, hdifference, hbound, hwithin⟩ :=
      Duration.within?_between? b target hdelta
    exact ⟨difference, bound, _, hdifference, hbound, hwithin, holds_of_written hb _ _⟩
  rewritten hb hb' hleap hleap' htarget htarget' hinstant hinstant' := by
    rw [holds_of_instants hb hleap htarget, holds_of_instants hb' hleap' htarget', hinstant,
      hinstant']
  symmetric hb htarget hleap hleap' := by
    rw [holds_of_instants hb hleap hleap', holds_of_instants htarget hleap' hleap, abs_sub_comm]
  monotone hle h := holds_mono hle h

/-- The calls that compile to a demand on an instant. Zeros in front of the milliseconds do not
count. -/
theorem ofExpected_eq_timestamp_iff {input : String} {t : Timestamp} {delta : Nat} :
    ofExpected input = .ok (.timestamp t delta) ↔
      ∃ token digits, Expression.Writes input.toList (.beTimestamp token digits) ∧
        Timestamp.parse (String.ofList token) = .ok t ∧
        Text.digitsToNat digits = delta ∧ delta < 2 ^ 63 := by
  have hparse : ofExpected input = .ok (.timestamp t delta) ↔
      Expression.parse input = .ok (some (.timestamp t delta)) := by
    rw [ofExpected, bind_eq_ok_iff]
    constructor
    · rintro ⟨result, hresult, h⟩
      rw [hresult]
      rcases result with _ | ⟨_⟩ | ⟨_⟩ | ⟨_⟩ <;> cases h
      rfl
    · intro h
      exact ⟨_, h, rfl⟩
  rw [hparse, Expression.parse_eq_iff]
  constructor
  · intro h
    cases h with
    | expression hwrites hdenotes =>
      cases hdenotes with
      | beTimestamp hinstant hdelta => exact ⟨_, _, hwrites, hinstant, rfl, hdelta⟩
  · rintro ⟨token, digits, hwrites, hinstant, rfl, hdelta⟩
    exact .expression hwrites (.beTimestamp hinstant hdelta)

/-- A text is a demand on an instant if it is written as a call with a timestamp and up to 63 bits
of milliseconds, and then the demand is exact. -/
theorem timestamp_exact (input : String) (t : Timestamp) (delta : Nat) :
    (ofExpected input = .ok (.timestamp t delta) ↔
      ∃ token digits target, Expression.Writes input.toList (.beTimestamp token digits) ∧
        Written target (Bytes.ofString (String.ofList token)) ∧ target.timestamp = t ∧
        Text.digitsToNat digits = delta ∧ delta < 2 ^ 63) ∧
    (ofExpected input = .ok (.timestamp t delta) →
      ∀ target : Civil, target.timestamp = t → ExactWithin target delta) := by
  simp only [ofExpected_eq_timestamp_iff]
  constructor
  · constructor
    · rintro ⟨token, digits, hwrites, hinstant, hdigits, hdelta⟩
      obtain ⟨target, htarget, rfl⟩ := Timestamp.ofBytes_sound hinstant
      exact ⟨token, digits, target, hwrites, htarget, rfl, hdigits, hdelta⟩
    · rintro ⟨token, digits, target, hwrites, htarget, rfl, hdigits, hdelta⟩
      exact ⟨token, digits, hwrites, Timestamp.ofBytes_complete htarget, hdigits, hdelta⟩
  · rintro ⟨-, -, -, -, -, hdelta⟩ target -
    exact exactWithin target hdelta

def newYear : Civil where
  year := 2020
  month := 1
  day := 1
  hour := 0
  minute := 0
  second := 0
  nanos := 0
  offset := 0
  year_lt := by decide
  isDate := by decide
  hour_le := by decide
  minute_le := by decide
  second_le := by decide
  nanos_lt := Timestamp.nanosPerSecond_pos
  offset_lt := by decide

def newYearAhead : Civil where
  year := 2020
  month := 1
  day := 1
  hour := 2
  minute := 0
  second := 5
  nanos := 0
  offset := 7200
  year_lt := by decide
  isDate := by decide
  hour_le := by decide
  minute_le := by decide
  second_le := by decide
  nanos_lt := Timestamp.nanosPerSecond_pos
  offset_lt := by decide

theorem written_newYear : Written newYear (Bytes.ofString "2020-01-01T00:00:00.000Z") := by
  have hbytes : Bytes.ofString "2020-01-01T00:00:00.000Z" =
      (Bytes.ofString "2020" ++
        byte '-' :: (Bytes.ofString "01" ++ byte '-' :: Bytes.ofString "01")) ++
      byte 'T' :: ((Bytes.ofString "00" ++
        byte ':' :: (Bytes.ofString "00" ++ byte ':' :: Bytes.ofString "00")) ++
      (byte '.' :: Bytes.ofString "000" ++ [byte 'Z'])) := by decide +kernel
  rw [hbytes]
  exact .parts (.parts (by decide +kernel) (by decide +kernel) (by decide +kernel)) (by decide)
    (.parts (by decide +kernel) (by decide +kernel) (by decide +kernel))
    (.point (by decide +kernel) (by decide +kernel)) (.utc (.inl rfl))

theorem written_newYearAhead :
    Written newYearAhead (Bytes.ofString "2020-01-01T02:00:05+02:00") := by
  have hhours : Timestamp.Numeral 2 (Bytes.ofString "02") 2 := by decide +kernel
  have hminutes : Timestamp.Numeral 2 (Bytes.ofString "00") 0 := by decide +kernel
  have hbytes : Bytes.ofString "2020-01-01T02:00:05+02:00" =
      (Bytes.ofString "2020" ++
        byte '-' :: (Bytes.ofString "01" ++ byte '-' :: Bytes.ofString "01")) ++
      byte 'T' :: ((Bytes.ofString "02" ++
        byte ':' :: (Bytes.ofString "00" ++ byte ':' :: Bytes.ofString "05")) ++
      ([] ++ ([byte '+'] ++ (Bytes.ofString "02" ++ byte ':' :: Bytes.ofString "00")))) := by
    decide +kernel
  rw [hbytes]
  exact .parts (.parts (by decide +kernel) (by decide +kernel) (by decide +kernel)) (by decide)
    (.parts (by decide +kernel) (by decide +kernel) (by decide +kernel)) .none
    (.numeric .plus hhours hminutes (by decide) (by decide))

theorem timestamp_exact_newYear :
    ofExpected "\x7b\x7bBeTimestamp(2020-01-01T00:00:00.000Z, 0005000)\x7d\x7d" =
        .ok (.timestamp newYear.timestamp 5000) ∧
      ExactWithin newYear 5000 ∧
      holds "2020-01-01T02:00:05+02:00" (.timestamp newYear.timestamp 5000) = .ok true := by
  have hwrites : Expression.Writes
      "\x7b\x7bBeTimestamp(2020-01-01T00:00:00.000Z, 0005000)\x7d\x7d".toList
      (.beTimestamp "2020-01-01T00:00:00.000Z".toList "0005000".toList) := by
    have hnone : Expression.Blanks [] := by simp [Expression.Blanks]
    have hspace : Expression.Blanks [' '] := by simp [Expression.Blanks, Expression.isBlank]
    have htoken : Expression.IsToken "2020-01-01T00:00:00.000Z".toList :=
      ⟨by simp, by simp [Expression.isTokenEnd, Expression.isBlank]⟩
    have hdigits : Binary64.AllDigits "0005000".toList := by simp [Binary64.AllDigits]
    exact ⟨_, .beTimestamp hnone htoken hnone hspace hdigits (by simp) hnone, by cbv⟩
  have htoken : String.ofList "2020-01-01T00:00:00.000Z".toList = "2020-01-01T00:00:00.000Z" :=
    String.ofList_toList
  have hcompiled := (timestamp_exact
      "\x7b\x7bBeTimestamp(2020-01-01T00:00:00.000Z, 0005000)\x7d\x7d" newYear.timestamp 5000).1.2
    ⟨_, _, newYear, hwrites, by rw [htoken]; exact written_newYear, rfl, by decide +kernel,
      by decide⟩
  have hexact := (timestamp_exact _ _ _).2 hcompiled newYear rfl
  refine ⟨hcompiled, hexact, ?_⟩
  rw [hexact.answers written_newYearAhead (by decide) (by decide)]
  decide +kernel

end StringTest

end DocMatch
