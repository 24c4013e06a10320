import DocMatch.Proofs.Binary64.Nearest
import DocMatch.Proofs.Decimal
import DocMatch.Proofs.Digits
import DocMatch.Proofs.Document

/-!
The numbers that literals denote, and what they are read as. A literal of any length and with any
exponent denotes one rational number, and the number that a node is read as is that one, rounded.
Main statements: `IsNumberOf.unique`, `exists_isNumberOf` and `numberValue_rounded`.
-/

namespace DocMatch

namespace Json

instance (x : Bytes) : Decidable (IsDigits x) := inferInstanceAs (Decidable (_ ∧ _))

theorem isWhole_of_isDigits {x : Bytes} (hx : IsDigits x) (hzero : x.head? ≠ some (byte '0')) :
    IsWhole x := by
  cases x with
  | nil => exact absurd rfl hx.1
  | cons b t => exact .digits (fun hb => hzero (by rw [hb]; rfl)) hx

inductive IsFractionOf : Bytes → ℚ → Prop where
  | none : IsFractionOf [] 0
  | point {x : Bytes} : IsDigits x → IsFractionOf (byte '.' :: x) (Bytes.toNat x / 10 ^ x.length)

inductive IsExponentOf : Bytes → ℤ → Prop where
  | none : IsExponentOf [] 0
  | positive {e : UInt8} {s x : Bytes} : e = byte 'e' ∨ e = byte 'E' → s = [] ∨ s = [byte '+'] →
      IsDigits x → IsExponentOf (e :: (s ++ x)) (Bytes.toNat x)
  | negative {e : UInt8} {x : Bytes} : e = byte 'e' ∨ e = byte 'E' → IsDigits x →
      IsExponentOf (e :: ([byte '-'] ++ x)) (-Bytes.toNat x)

inductive IsUnsignedOf : Bytes → ℚ → Prop where
  | parts {w f e : Bytes} {q : ℚ} {n : ℤ} : IsWhole w → IsFractionOf f q → IsExponentOf e n →
      IsUnsignedOf (w ++ (f ++ e)) ((Bytes.toNat w + q) * 10 ^ n)

/-- A number literal and the number it denotes. -/
inductive IsNumberOf : Bytes → ℚ → Prop where
  | unsigned {x : Bytes} {q : ℚ} : IsUnsignedOf x q → IsNumberOf x q
  | negative {x : Bytes} {q : ℚ} : IsUnsignedOf x q → IsNumberOf (byte '-' :: x) (-q)

theorem isNumberOf_parts {x w f e : Bytes} {q r : ℚ} {n : ℤ} (hw : IsWhole w)
    (hf : IsFractionOf f q) (he : IsExponentOf e n) (hx : x = w ++ (f ++ e))
    (hr : r = (Bytes.toNat w + q) * 10 ^ n) : IsNumberOf x r := by
  rw [hx, hr]
  exact .unsigned (.parts hw hf he)

theorem IsFractionOf.isFraction {x : Bytes} {q : ℚ} (h : IsFractionOf x q) : IsFraction x := by
  cases h with
  | none => exact .none
  | point hx => exact .point hx

theorem IsExponentOf.isExponent {x : Bytes} {n : ℤ} (h : IsExponentOf x n) : IsExponent x := by
  cases h with
  | none => exact .none
  | positive he hs hx =>
    refine .letter he ?_ hx
    rcases hs with rfl | rfl
    · exact .none
    · exact .plus
  | negative he hx => exact .letter he .minus hx

theorem IsUnsignedOf.isUnsigned {x : Bytes} {q : ℚ} (h : IsUnsignedOf x q) : IsUnsigned x := by
  cases h with
  | parts hw hf he => exact .parts hw hf.isFraction he.isExponent

theorem IsNumberOf.isNumber {x : Bytes} {q : ℚ} (h : IsNumberOf x q) : IsNumber x := by
  cases h with
  | unsigned h => exact .unsigned h.isUnsigned
  | negative h => exact .negative h.isUnsigned

theorem exists_isFractionOf {x : Bytes} (h : IsFraction x) : ∃ q, IsFractionOf x q := by
  cases h with
  | none => exact ⟨_, .none⟩
  | point hx => exact ⟨_, .point hx⟩

theorem exists_isExponentOf {x : Bytes} (h : IsExponent x) : ∃ n, IsExponentOf x n := by
  cases h with
  | none => exact ⟨_, .none⟩
  | letter he hs hx =>
    cases hs with
    | none => exact ⟨_, .positive he (.inl rfl) hx⟩
    | minus => exact ⟨_, .negative he hx⟩
    | plus => exact ⟨_, .positive he (.inr rfl) hx⟩

theorem exists_isUnsignedOf {x : Bytes} (h : IsUnsigned x) : ∃ q, IsUnsignedOf x q := by
  cases h with
  | parts hw hf he =>
    obtain ⟨q, hq⟩ := exists_isFractionOf hf
    obtain ⟨n, hn⟩ := exists_isExponentOf he
    exact ⟨_, .parts hw hq hn⟩

theorem exists_isNumberOf {x : Bytes} (h : IsNumber x) : ∃ q, IsNumberOf x q := by
  cases h with
  | unsigned h =>
    obtain ⟨q, hq⟩ := exists_isUnsignedOf h
    exact ⟨q, .unsigned hq⟩
  | negative h =>
    obtain ⟨q, hq⟩ := exists_isUnsignedOf h
    exact ⟨-q, .negative hq⟩

end Json

namespace Binary64

/-- The digits of a number without sign and the power of ten that they count. -/
def decimal? (s : List Char) : Option (Nat × Int) :=
  let whole := s.takeWhile Char.isDigit
  let (fraction, rest) :=
    match s.dropWhile Char.isDigit with
    | '.' :: t => (t.takeWhile Char.isDigit, t.dropWhile Char.isDigit)
    | t => ([], t)
  if whole.isEmpty && fraction.isEmpty then none
  else (exponent? rest).map fun e => (Text.digitsToNat (whole ++ fraction), e - fraction.length)

theorem unsigned?_eq_decimal? (negative : Bool) (s : List Char) :
    unsigned? negative s = (decimal? s).map fun d => ofDecimal negative d.1 d.2 := by
  unfold unsigned? decimal?
  rw [apply_ite (Option.map fun d : Nat × Int => ofDecimal negative d.1 d.2), Option.map_map]
  rfl

theorem toLower_of_isDigit {c : Char} (h : c.isDigit = true) : c.toLower = c := by
  simp only [Char.isDigit, Bool.and_eq_true, decide_eq_true_eq] at h
  have hhigh : c.toNat ≤ 57 := h.2
  rw [Char.toLower, dif_neg]
  rintro ⟨hlow, -⟩
  have hlow' : 65 ≤ c.toNat := hlow
  omega

theorem parse?_of_isDigit {s t : List Char} {negative : Bool} {c : Char}
    (hs : takeSign s = (negative, c :: t)) (hc : c.isDigit = true) :
    parse? s = unsigned? negative (c :: t) := by
  have hname (name : String) (h : ∀ d ∈ name.toList.head?, d.isDigit = false) :
      (c :: t).map Char.toLower ≠ name.toList := by
    intro heq
    rw [List.map_cons, toLower_of_isDigit hc] at heq
    rw [h c (by rw [← heq]; rfl)] at hc
    cases hc
  have hnan := hname "nan" (by simp)
  have hinf := hname "inf" (by simp)
  have hinfinity := hname "infinity" (by simp)
  unfold parse?
  simp only [hs, hnan, hinf, hinfinity, if_false, decide_false, Bool.or_self, Bool.false_eq_true]

theorem takeSign_of_isDigit {c : Char} (t : List Char) (hc : c.isDigit = true) :
    takeSign (c :: t) = (false, c :: t) := by
  obtain ⟨hminus, hplus⟩ := ne_sign_of_isDigit hc
  unfold takeSign
  split
  next h => exact absurd (List.cons.inj h).1 hminus
  next h => exact absurd (List.cons.inj h).1 hplus
  next => rfl

theorem takeSign_of_allDigits {d : List Char} (hd : AllDigits d) : takeSign d = (false, d) := by
  cases d with
  | nil => rfl
  | cons c t => exact takeSign_of_isDigit t (hd c (List.mem_cons_self ..))

theorem exponent?_of_takeSign {c : Char} {t d : List Char} {negative : Bool}
    (hc : c = 'e' ∨ c = 'E') (ht : takeSign t = (negative, d)) (hd : AllDigits d) (hne : d ≠ []) :
    exponent? (c :: t) =
      some (if negative then -(Text.digitsToNat d : ℤ) else Text.digitsToNat d) := by
  rw [exponent?, if_pos (by simpa using hc), ht]
  dsimp only
  rw [if_neg (by simp [hne, List.all_eq_true.2 hd])]

section

variable {w e : List Char} {n : ℤ} (hw : AllDigits w) (hne : w ≠ []) (he : IsExponent e)
  (hn : exponent? e = some n)

include hw hne he hn

theorem decimal?_of_whole : decimal? (w ++ e) = some (Text.digitsToNat w, n) := by
  obtain ⟨htake, hdrop⟩ := span_append hw he.isDigit_head?
  unfold decimal?
  simp only [htake, hdrop]
  split
  next t =>
    rcases he.head? '.' rfl with h | h <;> simp at h
  next => simp [hne, hn]

theorem decimal?_of_point {f : List Char} (hf : AllDigits f) :
    decimal? (w ++ '.' :: (f ++ e)) = some (Text.digitsToNat (w ++ f), n - f.length) := by
  obtain ⟨htake, hdrop⟩ := span_append (t := '.' :: (f ++ e)) hw (by simp)
  obtain ⟨hftake, hfdrop⟩ := span_append hf he.isDigit_head?
  unfold decimal?
  simp only [htake, hdrop, hftake, hfdrop]
  simp [hne, hn]

end

end Binary64

namespace Json

open Binary64 (AllDigits withSign Rounded)

theorem IsExponentOf.exponent? {x : Bytes} {n : ℤ} (h : IsExponentOf x n) :
    Binary64.exponent? (x.map toChar) = some n := by
  have hletter {e : UInt8} (he : e = byte 'e' ∨ e = byte 'E') :
      toChar e = 'e' ∨ toChar e = 'E' := by
    rcases he with rfl | rfl
    · exact .inl rfl
    · exact .inr rfl
  cases h with
  | none => rfl
  | @positive e s x he hs hx =>
    obtain ⟨hdigits, hne⟩ := hx.map
    have hsign : Binary64.takeSign ((s ++ x).map toChar) = (false, x.map toChar) := by
      rcases hs with rfl | rfl
      · exact Binary64.takeSign_of_allDigits hdigits
      · rfl
    rw [List.map_cons, Binary64.exponent?_of_takeSign (hletter he) hsign hdigits hne,
      digitsToNat_map_toChar]
    rfl
  | @negative e x he hx =>
    obtain ⟨hdigits, hne⟩ := hx.map
    have hsign : Binary64.takeSign (([byte '-'] ++ x).map toChar) = (true, x.map toChar) := rfl
    rw [List.map_cons, Binary64.exponent?_of_takeSign (hletter he) hsign hdigits hne,
      digitsToNat_map_toChar]
    rfl

theorem IsUnsignedOf.decimal? {x : Bytes} {q : ℚ} (h : IsUnsignedOf x q) :
    ∃ (digits : Nat) (k : ℤ), Binary64.decimal? (x.map toChar) = some (digits, k) ∧
      q = digits * 10 ^ k := by
  cases h with
  | @parts w f e q n hw hf he =>
    obtain ⟨hwhole, hne⟩ := hw.map
    have hexponent := he.isExponent.map
    cases hf with
    | none =>
      refine ⟨Bytes.toNat w, n, ?_, by rw [add_zero]⟩
      rw [List.nil_append, List.map_append, ← digitsToNat_map_toChar]
      exact Binary64.decimal?_of_whole hwhole hne hexponent he.exponent?
    | @point d hd =>
      refine ⟨Bytes.toNat w * 10 ^ d.length + Bytes.toNat d, n - d.length, ?_, ?_⟩
      · have hpoint : toChar (byte '.') = '.' := by decide
        rw [List.map_append, List.cons_append, List.map_cons, List.map_append, hpoint,
          Binary64.decimal?_of_point hwhole hne hexponent he.exponent? hd.map.1,
          ← List.map_append, digitsToNat_map_toChar, Bytes.toNat_append, List.length_map]
      · rw [zpow_sub₀ (by norm_num), zpow_natCast]
        push_cast
        field_simp

theorem IsUnsignedOf.exists_cons {x : Bytes} {q : ℚ} (h : IsUnsignedOf x q) :
    ∃ c t, x.map toChar = c :: t ∧ c.isDigit = true := by
  obtain ⟨b, t, rfl, hb⟩ := h.isUnsigned.exists_cons
  exact ⟨toChar b, t.map toChar, rfl, (isDigit_toChar b).trans hb⟩

theorem IsUnsignedOf.unique {x : Bytes} {p q : ℚ} (hp : IsUnsignedOf x p)
    (hq : IsUnsignedOf x q) : p = q := by
  obtain ⟨digits, k, hdecimal, rfl⟩ := hp.decimal?
  obtain ⟨digits', k', hdecimal', rfl⟩ := hq.decimal?
  obtain ⟨rfl, rfl⟩ := Prod.mk.inj (Option.some.inj (hdecimal.symm.trans hdecimal'))
  rfl

theorem not_isUnsignedOf_minus {x : Bytes} {q : ℚ} : ¬ IsUnsignedOf (byte '-' :: x) q := by
  intro h
  obtain ⟨b, t, heq, hb⟩ := h.isUnsigned.exists_cons
  rw [← (List.cons.inj heq).1] at hb
  exact absurd hb (by decide)

theorem IsNumberOf.unique {x : Bytes} {p q : ℚ} (hp : IsNumberOf x p) (hq : IsNumberOf x q) :
    p = q := by
  cases hp with
  | unsigned hp =>
    cases hq with
    | unsigned hq => exact hp.unique hq
    | negative hq => exact absurd hp not_isUnsignedOf_minus
  | negative hp =>
    cases hq with
    | unsigned hq => exact absurd hq not_isUnsignedOf_minus
    | negative hq => rw [hp.unique hq]

/-- A literal is read as the number nearest to what it denotes. -/
theorem IsNumberOf.parse? {x : Bytes} {q : ℚ} (h : IsNumberOf x q) :
    ∃ value, Binary64.parse? (x.map toChar) = some value ∧ Rounded q value := by
  have hread (negative : Bool) {y : Bytes} {r : ℚ} (hy : IsUnsignedOf y r) {s : List Char}
      (hs : Binary64.takeSign s = (negative, y.map toChar)) :
      ∃ value, Binary64.parse? s = some value ∧ Rounded (withSign negative r) value := by
    obtain ⟨c, t, hcons, hc⟩ := hy.exists_cons
    obtain ⟨digits, k, hdecimal, rfl⟩ := hy.decimal?
    rw [hcons] at hs hdecimal
    refine ⟨_, ?_, Binary64.rounded_ofDecimal negative digits k⟩
    rw [Binary64.parse?_of_isDigit hs hc, Binary64.unsigned?_eq_decimal?, hdecimal]
    rfl
  cases h with
  | unsigned hx =>
    obtain ⟨c, t, hcons, hc⟩ := hx.exists_cons
    exact hread false hx (by rw [hcons]; exact Binary64.takeSign_of_isDigit t hc)
  | negative hx => exact hread true hx rfl

end Json

/-- A literal is a document, and nothing else is one of this kind. -/
theorem Document.root_number {x : Bytes} {q : ℚ} (h : Json.IsNumberOf x q) :
    Document.root x = .ok ⟨.number, x⟩ :=
  root_complete_self (n := ⟨.number, x⟩) (.number h.isNumber)

theorem Document.exists_isNumberOf {data : Bytes} {n : Node} (h : Document.root data = .ok n)
    (hkind : n.kind = .number) : ∃ q, Json.IsNumberOf n.raw q := by
  have hvalue := (root_sound h).1
  cases hvalue with
  | number hx => exact Json.exists_isNumberOf hx
  | _ => cases hkind

theorem Node.numberValue_ofString {s : String} {x : Binary64}
    (h : Binary64.parse? (Text.trim s.toList) = some x) :
    Node.numberValue ⟨.number, Bytes.ofString s⟩ = .ok x := by
  rw [numberValue, text, Utf8.lossy_ofString, h]

theorem Node.numberValue_rounded {x : Bytes} {q : ℚ} (h : Json.IsNumberOf x q) :
    ∃ value, Node.numberValue ⟨.number, x⟩ = .ok value ∧ Binary64.Rounded q value := by
  obtain ⟨value, hvalue, hrounded⟩ := h.parse?
  refine ⟨value, ?_, hrounded⟩
  rw [numberValue, text, lossy_of_isNumber h.isNumber,
    Binary64.trim_of_shows (Json.isDecimal_of_isNumber h.isNumber).shows, hvalue]

end DocMatch
