import DocMatch.Proofs.Digits
import DocMatch.Proofs.Timestamp

/-!
Timestamps against their grammar: the reader takes exactly the texts that write a date, a time of
day and an offset, and makes of them the timestamp of what is written. Main statement:
`ofBytes_eq_ok_iff`.
-/

namespace DocMatch

namespace Timestamp

structure Numeral (count : Nat) (x : Bytes) (n : Nat) : Prop where
  length : x.length = count
  digits : ∀ b ∈ x, Bytes.isDigit b = true
  value : Bytes.toNat x = n

instance (count : Nat) (x : Bytes) (n : Nat) : Decidable (Numeral count x n) :=
  decidable_of_iff
    (x.length = count ∧ (∀ b ∈ x, Bytes.isDigit b = true) ∧ Bytes.toNat x = n)
    ⟨fun h => ⟨h.1, h.2.1, h.2.2⟩, fun h => ⟨h.length, h.digits, h.value⟩⟩

/-- A fraction of a second and its nanoseconds, rounded down. -/
inductive FractionOf : Bytes → Nat → Prop where
  | none : FractionOf [] 0
  | point {x : Bytes} : x ≠ [] → (∀ b ∈ x, Bytes.isDigit b = true) →
      FractionOf (byte '.' :: x) (Bytes.toNat x * nanosPerSecond / 10 ^ x.length)

inductive OffsetSign : Bytes → Bool → Prop where
  | plus : OffsetSign [byte '+'] false
  | hyphen : OffsetSign [byte '-'] true
  | minus : OffsetSign [0xe2, 0x88, 0x92] true

inductive OffsetOf : Bytes → ℤ → Prop where
  | utc {b : UInt8} : b = byte 'Z' ∨ b = byte 'z' → OffsetOf [b] 0
  | numeric {sign h m : Bytes} {negative : Bool} {hours minutes : Nat} :
      OffsetSign sign negative → Numeral 2 h hours → Numeral 2 m minutes → hours ≤ 23 →
      minutes ≤ 59 → OffsetOf (sign ++ (h ++ byte ':' :: m))
        (if negative then -(hours * 3600 + minutes * 60 : ℤ) else hours * 3600 + minutes * 60)

inductive Triple (separator : UInt8) (count : Nat) : Bytes → Nat → Nat → Nat → Prop where
  | parts {x y z : Bytes} {l m n : Nat} : Numeral count x l → Numeral 2 y m → Numeral 2 z n →
      Triple separator count (x ++ separator :: (y ++ separator :: z)) l m n

/-- The text of a timestamp. -/
inductive Written (c : Civil) : Bytes → Prop where
  | parts {date time fraction offset : Bytes} {separator : UInt8} :
      Triple (byte '-') 4 date c.year c.month c.day → isDateEnd separator = true →
      Triple (byte ':') 2 time c.hour c.minute c.second → FractionOf fraction c.nanos →
      OffsetOf offset c.offset → Written c (date ++ separator :: (time ++ (fraction ++ offset)))

theorem Numeral.lt {count n : Nat} {x : Bytes} (h : Numeral count x n) : n < 10 ^ count := by
  rw [← h.value, ← h.length]
  exact Bytes.toNat_lt h.digits

theorem Triple.lt {b : UInt8} {count l m n : Nat} {s : Bytes} (h : Triple b count s l m n) :
    l < 10 ^ count := by
  cases h with
  | parts hx _ _ => exact hx.lt

theorem Triple.length {b : UInt8} {count l m n : Nat} {s : Bytes} (h : Triple b count s l m n) :
    s.length = count + 6 := by
  cases h with
  | parts hx hy hz =>
    simp only [List.length_append, List.length_cons, hx.length, hy.length, hz.length]

theorem number?_eq_some_iff {x : Bytes} {n : Nat} :
    number? x = some n ↔ Numeral x.length x n := by
  unfold number?
  split
  next h =>
    rw [Option.some.injEq]
    exact ⟨fun hn => ⟨rfl, List.all_eq_true.1 h, hn⟩, Numeral.value⟩
  next h => exact iff_of_false (by simp) fun hn => h (List.all_eq_true.2 hn.digits)

theorem Numeral.number? {count n : Nat} {x : Bytes} (h : Numeral count x n) :
    number? x = some n :=
  number?_eq_some_iff.2 ⟨rfl, h.digits, h.value⟩

theorem orInvalid_eq_ok_iff {α : Type} {o : Option α} {a : α} :
    orInvalid o = .ok a ↔ o = some a := by
  cases o <;> simp [orInvalid]

theorem eq_append_of_getElem? {s : Bytes} {i : Nat} {b : UInt8} (h : s[i]? = some b) :
    s = s.take i ++ b :: s.drop (i + 1) := by
  obtain ⟨hi, rfl⟩ := List.getElem?_eq_some_iff.1 h
  rw [← List.drop_eq_getElem_cons hi, List.take_append_drop]

theorem eq_append_of_separators {s : Bytes} {i : Nat} {b : UInt8} (h : s[i]? = some b)
    (h' : s[i + 3]? = some b) :
    s = s.take i ++ b :: ((s.drop (i + 1)).take 2 ++ b :: s.drop (i + 4)) := by
  have hsecond : (s.drop (i + 1))[2]? = some b := by rw [List.getElem?_drop, ← h']
  rw [← List.drop_drop (i := 3) (j := i + 1), ← eq_append_of_getElem? hsecond]
  exact eq_append_of_getElem? h

theorem drop_succ_append {x t : Bytes} {b : UInt8} {n : Nat} (h : x.length = n) :
    (x ++ b :: t).drop (n + 1) = t := by
  rw [← h, List.drop_length_add_append]
  rfl

theorem getElem?_append_cons {x t : Bytes} {b : UInt8} {n : Nat} (h : x.length = n) :
    (x ++ b :: t)[n]? = some b := by
  rw [List.getElem?_append_right h.le, h, Nat.sub_self]
  rfl

/-- Three numbers are found by their places. -/
theorem triple_iff {s : Bytes} {b : UInt8} {l m n : Nat} (count : Nat)
    (hs : s.length = count + 6) :
    Triple b count s l m n ↔
      number? (s.take count) = some l ∧ number? ((s.drop (count + 1)).take 2) = some m ∧
        number? ((s.drop (count + 4)).take 2) = some n ∧
        s[count]? = some b ∧ s[count + 3]? = some b := by
  constructor
  · intro h
    cases h with
    | @parts x y z _ _ _ hx hy hz =>
      have hrest : (x ++ b :: (y ++ b :: z)).drop (count + 1) = y ++ b :: z :=
        drop_succ_append hx.length
      have hlast : (x ++ b :: (y ++ b :: z)).drop (count + 4) = z := by
        rw [← List.drop_drop (i := 3) (j := count + 1), hrest]
        exact drop_succ_append hy.length
      have hsecond : (x ++ b :: (y ++ b :: z))[count + 3]? = some b := by
        have hplace : ((x ++ b :: (y ++ b :: z)).drop (count + 1))[2]? =
            (x ++ b :: (y ++ b :: z))[count + 1 + 2]? := List.getElem?_drop
        rw [hrest, getElem?_append_cons hy.length] at hplace
        exact hplace.symm
      refine ⟨?_, ?_, ?_, getElem?_append_cons hx.length, hsecond⟩
      · rw [List.take_left' hx.length]
        exact hx.number?
      · rw [hrest, List.take_left' hy.length]
        exact hy.number?
      · rw [hlast, List.take_of_length_le hz.length.le]
        exact hz.number?
  · rintro ⟨hl, hm, hn, hfirst, hsecond⟩
    have hlast : (s.drop (count + 4)).take 2 = s.drop (count + 4) :=
      List.take_of_length_le (by rw [List.length_drop, hs]; omega)
    rw [hlast] at hn
    have hl' := number?_eq_some_iff.1 hl
    have hm' := number?_eq_some_iff.1 hm
    have hn' := number?_eq_some_iff.1 hn
    rw [List.length_take, hs, min_eq_left (by omega)] at hl'
    rw [List.length_take, List.length_drop, hs, min_eq_left (by omega)] at hm'
    rw [List.length_drop, hs, show count + 6 - (count + 4) = 2 by omega] at hn'
    rw [eq_append_of_separators hfirst hsecond]
    exact .parts hl' hm' hn'

/-- What is refused on a condition is read where the condition does not hold. -/
theorem refuse_eq_ok_iff {α β : Type} {p : Prop} [Decidable p] {fault : TimestampFault}
    {next : β → Except TimestampFault α} {x : Except TimestampFault α} {a : α} :
    (if p then throw fault >>= next else x) = .ok a ↔ ¬ p ∧ x = .ok a := by
  split
  next h =>
    have hfault : throw fault >>= next = .error fault := rfl
    exact iff_of_false (by simp [hfault]) fun hx => hx.1 h
  next h => exact (and_iff_right h).symm

theorem readDate_eq_ok_iff {s : Bytes} (hs : s.length = 10) {n : ℤ} :
    readDate s = .ok n ↔
      ∃ year month day, Triple (byte '-') 4 s year month day ∧ isDate year month day = true ∧
        dayNumber year month day = n := by
  simp only [triple_iff 4 hs, readDate, bind_eq_ok_iff, orInvalid_eq_ok_iff,
    refuse_eq_ok_iff, not_or, not_not]
  constructor
  · rintro ⟨year, hyear, month, hmonth, day, hday, hseparators, h⟩
    split at h
    next hdate =>
      exact ⟨year, month, day, ⟨hyear, hmonth, hday, hseparators⟩, hdate, Except.ok.inj h⟩
    next => cases h
  · rintro ⟨year, month, day, ⟨hyear, hmonth, hday, hseparators⟩, hdate, rfl⟩
    exact ⟨year, hyear, month, hmonth, day, hday, hseparators, if_pos hdate⟩

theorem readTime_eq_ok_iff {s : Bytes} (hs : s.length = 8) {hour minute second : Nat} :
    readTime s = .ok (hour, minute, second) ↔ Triple (byte ':') 2 s hour minute second := by
  simp only [triple_iff 2 hs, readTime, bind_eq_ok_iff, orInvalid_eq_ok_iff,
    refuse_eq_ok_iff, not_or, not_not]
  constructor
  · rintro ⟨hour', hhour, minute', hminute, second', hsecond, hseparators, h⟩
    obtain ⟨rfl, hrest⟩ := Prod.mk.inj (Except.ok.inj h)
    obtain ⟨rfl, rfl⟩ := Prod.mk.inj hrest
    exact ⟨hhour, hminute, hsecond, hseparators⟩
  · rintro ⟨hhour, hminute, hsecond, hseparators⟩
    exact ⟨hour, hhour, minute, hminute, second, hsecond, hseparators, rfl⟩

theorem kept_eq {x : Bytes} (hx : ∀ b ∈ x, Bytes.isDigit b = true) :
    Bytes.toNat (x.take 9) * Nat.pow 10 (9 - (x.take 9).length) =
      Bytes.toNat x * nanosPerSecond / 10 ^ x.length := by
  have hunit : nanosPerSecond = 10 ^ 9 := by decide
  rw [Bytes.toNat_take hx, List.length_take, hunit]
  rcases Nat.le_total x.length 9 with h | h
  · have hsplit : 10 ^ 9 = 10 ^ (9 - x.length) * 10 ^ x.length := by
      rw [← Nat.pow_add, Nat.sub_add_cancel h]
    rw [Nat.sub_eq_zero_of_le h, Nat.pow_zero, Nat.div_one, min_eq_right h, hsplit,
      ← Nat.mul_assoc, Nat.mul_div_cancel _ (Nat.pow_pos (by decide))]
    rfl
  · have hsplit : 10 ^ x.length = 10 ^ (x.length - 9) * 10 ^ 9 := by
      rw [← Nat.pow_add, Nat.sub_add_cancel h]
    rw [min_eq_left h, hsplit, Nat.mul_div_mul_right _ _ (by decide)]
    exact Nat.mul_one _

theorem FractionOf.lt {f : Bytes} {n : Nat} (h : FractionOf f n) : n < nanosPerSecond := by
  cases h with
  | none => exact nanosPerSecond_pos
  | @point x hne hx =>
    rw [Nat.div_lt_iff_lt_mul (Nat.pow_pos (by decide)), Nat.mul_comm]
    exact Nat.mul_lt_mul_of_pos_left (Bytes.toNat_lt hx) nanosPerSecond_pos

theorem readFraction_sound {s rest : Bytes} {n : Nat} (h : readFraction s = .ok (n, rest)) :
    ∃ f, FractionOf f n ∧ s = f ++ rest := by
  unfold readFraction at h
  split at h
  next b t =>
    split at h
    next hb =>
      dsimp only at h
      split_ifs at h with hempty hdigits
      obtain ⟨rfl, rfl⟩ := Prod.mk.inj (Except.ok.inj h)
      have hall : ∀ b ∈ t.takeWhile Bytes.isDigit, Bytes.isDigit b = true :=
        List.all_eq_true.1 (List.all_takeWhile ..)
      refine ⟨byte '.' :: t.takeWhile Bytes.isDigit, ?_, ?_⟩
      · rw [kept_eq hall]
        exact .point (mt List.isEmpty_iff.2 hdigits) hall
      · rw [hb, List.cons_append, List.takeWhile_append_dropWhile]
    next =>
      obtain ⟨rfl, rfl⟩ := Prod.mk.inj (Except.ok.inj h)
      exact ⟨[], .none, rfl⟩
  next =>
    obtain ⟨rfl, rfl⟩ := Prod.mk.inj (Except.ok.inj h)
    exact ⟨[], .none, rfl⟩

theorem readFraction_complete {f rest : Bytes} {n : Nat} (h : FractionOf f n)
    (hrest : ∀ b ∈ rest.head?, Bytes.isDigit b = false ∧ b ≠ byte '.') :
    readFraction (f ++ rest) = .ok (n, rest) := by
  cases h with
  | none =>
    cases rest with
    | nil => rfl
    | cons b t =>
      rw [List.nil_append, readFraction, if_neg (hrest b rfl).2]
  | @point x hne hx =>
    obtain ⟨htake, hdrop⟩ := span_append hx fun b hb => (hrest b hb).1
    have hempty : ¬ (x ++ rest).isEmpty = true := by simp [hne]
    have hdigits : ¬ x.isEmpty = true := by simp [hne]
    rw [List.cons_append, readFraction, if_pos rfl]
    dsimp only
    rw [if_neg hempty, htake, if_neg hdigits, hdrop, kept_eq hx]

theorem readOffsetSign_eq_ok_iff {s t : Bytes} {negative : Bool} :
    readOffsetSign s = .ok (negative, t) ↔ ∃ sign, OffsetSign sign negative ∧ s = sign ++ t := by
  constructor
  · intro h
    unfold readOffsetSign at h
    split at h
    · cases h
    next b u =>
      split_ifs at h with hplus hhyphen
      · obtain ⟨rfl, rfl⟩ := Prod.mk.inj (Except.ok.inj h)
        exact ⟨_, .plus, by rw [hplus]; rfl⟩
      · obtain ⟨rfl, rfl⟩ := Prod.mk.inj (Except.ok.inj h)
        exact ⟨_, .hyphen, by rw [hhyphen]; rfl⟩
      · split at h
        next hminus =>
          obtain ⟨rfl, rfl⟩ := Prod.mk.inj (Except.ok.inj h)
          exact ⟨_, .minus, hminus⟩
        next => cases h
  · rintro ⟨sign, hsign, rfl⟩
    cases hsign <;> rfl

theorem readPair_eq_ok_iff {refuse : UInt8 → Option TimestampFault} {s t : Bytes} {n : Nat} :
    readPair refuse s = .ok (n, t) ↔
      ∃ a b, Numeral 2 [a, b] n ∧ refuse a = none ∧ s = a :: b :: t := by
  constructor
  · intro h
    unfold readPair at h
    split at h
    next a b u =>
      split at h
      next hdigits =>
        rw [Bool.and_eq_true] at hdigits
        split at h
        next => cases h
        next hrefuse =>
          obtain ⟨rfl, rfl⟩ := Prod.mk.inj (Except.ok.inj h)
          exact ⟨a, b, ⟨rfl, by simpa using hdigits, rfl⟩, hrefuse, rfl⟩
      next => cases h
    next => cases h
  · rintro ⟨a, b, hn, hrefuse, rfl⟩
    have hdigits : (Bytes.isDigit a && Bytes.isDigit b) = true := by simpa using hn.digits
    rw [readPair, if_pos hdigits, hrefuse, ← hn.value]

def readSigned (negative : Bool) (s : Bytes) : Except TimestampFault ℤ := do
  let (hours, s) ← readPair (fun _ => none) s
  match s with
  | [] => throw .tooShort
  | b :: s =>
    if b ≠ byte ':' then throw .invalid
    let (minutes, s) ← readPair (fun a => if byte '6' ≤ a then some .outOfRange else none) s
    if !s.isEmpty then throw .tooLong
    let seconds : ℤ := hours * 3600 + minutes * 60
    if 86400 ≤ seconds then throw .outOfRange
    pure (if negative then -seconds else seconds)

theorem readOffset_eq_readSigned {s : Bytes} (h : ∀ b ∈ s.head?, ¬ (b = byte 'Z' ∨ b = byte 'z')) :
    readOffset s = (readOffsetSign s >>= fun p => readSigned p.1 p.2) := by
  rcases s with _ | ⟨b, _ | ⟨c, t⟩⟩
  · rfl
  · unfold readOffset
    dsimp only
    rw [if_neg (h b rfl)]
    rfl
  · unfold readOffset
    dsimp only
    rw [if_neg (h b rfl)]
    rfl

theorem refuse_sixty_iff {a b : UInt8} {n : Nat} (h : Numeral 2 [a, b] n) :
    (if byte '6' ≤ a then some TimestampFault.outOfRange else none) = none ↔ n ≤ 59 := by
  have hdigits : Bytes.isDigit a = true ∧ Bytes.isDigit b = true := by simpa using h.digits
  have ha := Bytes.digitValue_lt hdigits.1
  have hb := Bytes.digitValue_lt hdigits.2
  have hlow : 48 ≤ a.toNat := by
    have hisDigit := hdigits.1
    simp only [Bytes.isDigit, Bool.and_eq_true, decide_eq_true_eq,
      UInt8.le_iff_toNat_le] at hisDigit
    exact hisDigit.1
  have hn : n = Bytes.digitValue a * 10 + Bytes.digitValue b := by
    rw [← h.value]
    simp [Bytes.toNat]
  have hvalue : Bytes.digitValue a = a.toNat - 48 := rfl
  have hsix : byte '6' ≤ a ↔ 54 ≤ a.toNat := UInt8.le_iff_toNat_le
  rw [ite_eq_right_iff, hsix]
  simp only [reduceCtorEq, imp_false]
  omega

theorem readSigned_eq_ok_iff {negative : Bool} {s : Bytes} {n : ℤ} :
    readSigned negative s = .ok n ↔
      ∃ h m hours minutes, Numeral 2 h hours ∧ Numeral 2 m minutes ∧ hours ≤ 23 ∧ minutes ≤ 59 ∧
        s = h ++ byte ':' :: m ∧
        (if negative then -(hours * 3600 + minutes * 60 : ℤ) else hours * 3600 + minutes * 60) =
          n := by
  simp only [readSigned, bind_eq_ok_iff]
  constructor
  · rintro ⟨⟨hours, s₁⟩, hhours, h⟩
    obtain ⟨a, b, hnumeral, -, rfl⟩ := readPair_eq_ok_iff.1 hhours
    cases s₁ with
    | nil => cases h
    | cons c s₂ =>
      dsimp only at h
      rw [refuse_eq_ok_iff, not_not, bind_eq_ok_iff] at h
      obtain ⟨rfl, ⟨minutes, s₃⟩, hminutes, h⟩ := h
      obtain ⟨d, e, hnumeral', hrefuse, rfl⟩ := readPair_eq_ok_iff.1 hminutes
      dsimp only at h
      rw [refuse_eq_ok_iff, refuse_eq_ok_iff] at h
      obtain ⟨hend, hrange, h⟩ := h
      have hle := (refuse_sixty_iff hnumeral').1 hrefuse
      obtain rfl : s₃ = [] := by simpa using hend
      exact ⟨[a, b], [d, e], hours, minutes, hnumeral, hnumeral', by omega, hle, rfl,
        Except.ok.inj h⟩
  · rintro ⟨h, m, hours, minutes, hnumeral, hnumeral', hhours, hminutes, rfl, rfl⟩
    obtain ⟨a, b, rfl⟩ := List.length_eq_two.1 hnumeral.length
    obtain ⟨d, e, rfl⟩ := List.length_eq_two.1 hnumeral'.length
    refine ⟨(hours, byte ':' :: [d, e]), readPair_eq_ok_iff.2 ⟨a, b, hnumeral, rfl, rfl⟩, ?_⟩
    dsimp only
    rw [refuse_eq_ok_iff, not_not, bind_eq_ok_iff]
    refine ⟨rfl, (minutes, []), readPair_eq_ok_iff.2
      ⟨d, e, hnumeral', (refuse_sixty_iff hnumeral').2 hminutes, rfl⟩, ?_⟩
    dsimp only
    rw [refuse_eq_ok_iff, refuse_eq_ok_iff]
    exact ⟨by simp, by omega, rfl⟩

theorem OffsetSign.head? {sign : Bytes} {negative : Bool} (h : OffsetSign sign negative)
    (t : Bytes) :
    ∃ b ∈ (sign ++ t).head?, Bytes.isDigit b = false ∧ b ≠ byte '.' ∧
      ¬ (b = byte 'Z' ∨ b = byte 'z') := by
  cases h <;> exact ⟨_, rfl, by decide⟩

theorem readOffset_eq_ok_iff {s : Bytes} {n : ℤ} : readOffset s = .ok n ↔ OffsetOf s n := by
  constructor
  · intro h
    by_cases hutc : ∀ b ∈ s.head?, ¬ (b = byte 'Z' ∨ b = byte 'z')
    · rw [readOffset_eq_readSigned hutc, bind_eq_ok_iff] at h
      obtain ⟨⟨negative, t⟩, hread, h⟩ := h
      obtain ⟨sign, hsign, rfl⟩ := readOffsetSign_eq_ok_iff.1 hread
      obtain ⟨x, y, hours, minutes, hx, hy, hhours, hminutes, rfl, rfl⟩ := readSigned_eq_ok_iff.1 h
      exact .numeric hsign hx hy hhours hminutes
    · push Not at hutc
      obtain ⟨b, hb, hz⟩ := hutc
      rcases s with _ | ⟨c, _ | ⟨d, t⟩⟩
      · cases hb
      · obtain rfl : c = b := Option.some.inj hb
        unfold readOffset at h
        dsimp only at h
        rw [if_pos hz] at h
        obtain rfl : 0 = n := Except.ok.inj h
        exact .utc hz
      · obtain rfl : c = b := Option.some.inj hb
        unfold readOffset at h
        dsimp only at h
        rw [if_pos hz] at h
        cases h
  · intro h
    cases h with
    | @utc b hb =>
      unfold readOffset
      dsimp only
      rw [if_pos hb]
      rfl
    | @numeric sign x y negative hours minutes hsign hx hy hhours hminutes =>
      obtain ⟨b, hb, -, -, hutc⟩ := hsign.head? (x ++ byte ':' :: y)
      rw [readOffset_eq_readSigned fun c hc => Option.mem_unique hb hc ▸ hutc, bind_eq_ok_iff]
      exact ⟨(negative, _), readOffsetSign_eq_ok_iff.2 ⟨sign, hsign, rfl⟩,
        readSigned_eq_ok_iff.2 ⟨x, y, hours, minutes, hx, hy, hhours, hminutes, rfl, rfl⟩⟩

theorem OffsetOf.head? {s : Bytes} {n : ℤ} (h : OffsetOf s n) :
    ∀ b ∈ s.head?, Bytes.isDigit b = false ∧ b ≠ byte '.' := by
  intro b hb
  cases h with
  | utc hz =>
    obtain rfl := Option.some.inj hb
    rcases hz with rfl | rfl <;> decide
  | @numeric sign x y negative hours minutes hsign _ _ _ _ =>
    obtain ⟨c, hc, hdigit, hpoint, -⟩ := hsign.head? (x ++ byte ':' :: y)
    rw [Option.mem_unique hb hc]
    exact ⟨hdigit, hpoint⟩

theorem OffsetOf.lt {s : Bytes} {n : ℤ} (h : OffsetOf s n) : |n| < 86400 := by
  cases h with
  | utc _ => decide
  | numeric _ _ _ _ _ =>
    rw [abs_lt]
    split_ifs <;> omega

theorem ofBytes_sound {s : Bytes} {t : Timestamp} (h : ofBytes s = .ok t) :
    ∃ c : Civil, Written c s ∧ c.timestamp = t := by
  rw [ofBytes, refuse_eq_ok_iff, bind_eq_ok_iff] at h
  obtain ⟨hlength, day, hday, h⟩ := h
  rw [refuse_eq_ok_iff, bind_eq_ok_iff] at h
  obtain ⟨hseparator, ⟨hour, minute, second⟩, htime, h⟩ := h
  dsimp only at h
  rw [bind_eq_ok_iff] at h
  obtain ⟨⟨nanos, rest⟩, hfraction, h⟩ := h
  dsimp only at h
  rw [refuse_eq_ok_iff, bind_eq_ok_iff] at h
  obtain ⟨hrange, offset, hoffset, h⟩ := h
  have hdate : (s.take 10).length = 10 := by rw [List.length_take]; omega
  have hclock : ((s.drop 11).take 8).length = 8 := by
    rw [List.length_take, List.length_drop]
    omega
  obtain ⟨year, month, dayOfMonth, hdate, hisDate, rfl⟩ := (readDate_eq_ok_iff hdate).1 hday
  have htime := (readTime_eq_ok_iff hclock).1 htime
  obtain ⟨fraction, hfraction, hrest⟩ := readFraction_sound hfraction
  have hoffset := readOffset_eq_ok_iff.1 hoffset
  obtain ⟨b, hb, hend⟩ : ∃ b, s[10]? = some b ∧ isDateEnd b = true := by
    simpa [Option.any_eq_true] using hseparator
  let c : Civil :=
    { year, month, day := dayOfMonth, hour, minute, second, nanos, offset
      year_lt := hdate.lt
      isDate := hisDate
      hour_le := by omega
      minute_le := by omega
      second_le := by omega
      nanos_lt := hfraction.lt
      offset_lt := hoffset.lt }
  refine ⟨c, ?_, Except.ok.inj h⟩
  have hsplit : s = s.take 10 ++ b :: ((s.drop 11).take 8 ++ (fraction ++ rest)) := by
    rw [← hrest, ← List.drop_drop (i := 8) (j := 11), List.take_append_drop]
    exact eq_append_of_getElem? hb
  rw [hsplit]
  exact .parts hdate hend htime hfraction hoffset

theorem ofBytes_complete {s : Bytes} {c : Civil} (h : Written c s) :
    ofBytes s = .ok c.timestamp := by
  cases h with
  | @parts date time fraction offset separator hdate hend htime hfraction hoffset =>
    have hdrop : (date ++ separator :: (time ++ (fraction ++ offset))).drop 11 =
        time ++ (fraction ++ offset) := drop_succ_append hdate.length
    have hdrop' : (date ++ separator :: (time ++ (fraction ++ offset))).drop 19 =
        fraction ++ offset := by
      rw [← List.drop_drop (i := 8) (j := 11), hdrop, List.drop_left' htime.length]
    have hlength : ¬ (date ++ separator :: (time ++ (fraction ++ offset))).length < 19 := by
      have hdlength := hdate.length
      have htlength := htime.length
      simp only [List.length_append, List.length_cons]
      omega
    have hrange : ¬ (23 < c.hour ∨ 59 < c.minute ∨ 60 < c.second) := by
      have hhour := c.hour_le
      have hminute := c.minute_le
      have hsecond := c.second_le
      omega
    rw [ofBytes, refuse_eq_ok_iff, bind_eq_ok_iff, hdrop, hdrop', List.take_left' hdate.length,
      List.take_left' htime.length, getElem?_append_cons hdate.length]
    refine ⟨hlength, _, (readDate_eq_ok_iff hdate.length).2 ⟨_, _, _, hdate, c.isDate, rfl⟩, ?_⟩
    rw [refuse_eq_ok_iff, bind_eq_ok_iff]
    refine ⟨by simpa using hend, _, (readTime_eq_ok_iff htime.length).2 htime, ?_⟩
    dsimp only
    rw [bind_eq_ok_iff]
    refine ⟨_, readFraction_complete hfraction hoffset.head?, ?_⟩
    dsimp only
    rw [refuse_eq_ok_iff, bind_eq_ok_iff]
    exact ⟨hrange, _, readOffset_eq_ok_iff.2 hoffset, rfl⟩

/-- A text is read as a timestamp if it writes one, and as the one that it writes. -/
theorem ofBytes_eq_ok_iff {s : Bytes} {t : Timestamp} :
    ofBytes s = .ok t ↔ ∃ c : Civil, Written c s ∧ c.timestamp = t := by
  constructor
  · exact ofBytes_sound
  · rintro ⟨c, hc, rfl⟩
    exact ofBytes_complete hc

end Timestamp

end DocMatch
