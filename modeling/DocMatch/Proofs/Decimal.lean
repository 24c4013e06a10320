import DocMatch.Binary64.Decimal
import DocMatch.Expression.Parse
import DocMatch.Proofs.Json.Number
import DocMatch.Text.Blank

/-!
Texts that denote numbers. The numbers of documents and the numbers in expressions are written in
grammars of their own; both lie within the texts that are read as numbers. Main statements:
`parse?_isSome`, `isDecimal_of_isNumber` and `isDecimal_of_numberToken?`.
-/

namespace DocMatch

namespace Binary64

def AllDigits (s : List Char) : Prop := ∀ c ∈ s, c.isDigit = true

inductive IsMantissa : List Char → Prop where
  | whole {w : List Char} : AllDigits w → w ≠ [] → IsMantissa w
  | point {w f : List Char} :
      AllDigits w → AllDigits f → w ≠ [] ∨ f ≠ [] → IsMantissa (w ++ '.' :: f)

def IsSign (s : List Char) : Prop := s = [] ∨ s = ['-'] ∨ s = ['+']

inductive IsExponent : List Char → Prop where
  | none : IsExponent []
  | letter {c : Char} {s d : List Char} :
      c = 'e' ∨ c = 'E' → IsSign s → AllDigits d → d ≠ [] → IsExponent (c :: (s ++ d))

/-- Every text that is a number, names aside. -/
inductive IsDecimal : List Char → Prop where
  | parts {s m e : List Char} : IsSign s → IsMantissa m → IsExponent e → IsDecimal (s ++ (m ++ e))

theorem takeSign_append {s t : List Char} (hs : IsSign s) (ht : ∀ c ∈ t.head?, c ≠ '-' ∧ c ≠ '+') :
    (takeSign (s ++ t)).2 = t := by
  rcases hs with rfl | rfl | rfl
  · rw [List.nil_append]
    unfold takeSign
    split
    next => exact absurd rfl (ht '-' rfl).1
    next => exact absurd rfl (ht '+' rfl).2
    next => rfl
  · rfl
  · rfl

theorem ne_sign_of_isDigit {c : Char} (h : c.isDigit = true) : c ≠ '-' ∧ c ≠ '+' := by
  constructor <;> (rintro rfl; exact absurd h (by decide))

theorem exponent?_isSome {e : List Char} (he : IsExponent e) : (exponent? e).isSome = true := by
  cases he with
  | none => rfl
  | @letter c s d hc hs hd hne =>
    have hsign : ∀ c ∈ d.head?, c ≠ '-' ∧ c ≠ '+' := fun c hc =>
      ne_sign_of_isDigit (hd c (List.mem_of_mem_head? hc))
    have hc' : (c = 'e' || c = 'E') = true := by simpa using hc
    have hdigits : (d.isEmpty || !d.all Char.isDigit) = false := by
      simp [hne, List.all_eq_true.2 hd]
    rw [exponent?, if_pos hc']
    simp only [takeSign_append hs hsign, hdigits]
    rfl

theorem IsExponent.head? {e : List Char} (he : IsExponent e) :
    ∀ c ∈ e.head?, c = 'e' ∨ c = 'E' := by
  cases he with
  | none => simp
  | letter hc _ _ _ => simpa using hc

theorem IsExponent.isDigit_head? {e : List Char} (he : IsExponent e) :
    ∀ c ∈ e.head?, c.isDigit = false := by
  intro c hc
  rcases he.head? c hc with rfl | rfl <;> decide

theorem unsigned?_isSome (negative : Bool) {m e : List Char} (hm : IsMantissa m)
    (he : IsExponent e) : (unsigned? negative (m ++ e)).isSome = true := by
  have hexponent := exponent?_isSome he
  cases hm with
  | whole hw hne =>
    obtain ⟨htake, hdrop⟩ := span_append hw he.isDigit_head?
    unfold unsigned?
    simp only [htake, hdrop]
    split
    next t =>
      rcases he.head? '.' rfl with h | h <;> simp at h
    next => simp [hne, hexponent]
  | @point w f hw hf hne =>
    obtain ⟨htake, hdrop⟩ := span_append (t := '.' :: (f ++ e)) hw (by simp)
    obtain ⟨hftake, hfdrop⟩ := span_append hf he.isDigit_head?
    unfold unsigned?
    simp only [List.append_assoc, List.cons_append, htake, hdrop, hftake, hfdrop]
    have hempty : (w.isEmpty && f.isEmpty) = false := by
      rcases hne with hne | hne <;> simp [hne]
    simp [hempty, hexponent]

theorem IsMantissa.ne_sign {m : List Char} (hm : IsMantissa m) (t : List Char) :
    ∀ c ∈ (m ++ t).head?, c ≠ '-' ∧ c ≠ '+' := by
  intro c hc
  cases hm with
  | whole hw hne =>
    obtain ⟨d, w, rfl⟩ := List.exists_cons_of_ne_nil hne
    obtain rfl : d = c := by simpa using hc
    exact ne_sign_of_isDigit (hw d (List.mem_cons_self ..))
  | @point w f hw _ _ =>
    cases w with
    | nil =>
      obtain rfl : '.' = c := by simpa using hc
      decide
    | cons d w =>
      obtain rfl : d = c := by simpa using hc
      exact ne_sign_of_isDigit (hw d (List.mem_cons_self ..))

theorem parse?_isSome {s : List Char} (hs : IsDecimal s) : (parse? s).isSome = true := by
  cases hs with
  | @parts sign m e hsign hm he =>
    unfold parse?
    simp only [takeSign_append hsign (hm.ne_sign e)]
    repeat' split
    · rfl
    · rfl
    · exact unsigned?_isSome _ hm he

/-- A character that shows in print, so no white space. -/
def Shows (c : Char) : Prop := 0x21 ≤ c.toNat ∧ c.toNat ≤ 0x7e

theorem AllDigits.shows {d : List Char} (hd : AllDigits d) : ∀ c ∈ d, Shows c := by
  intro c hc
  have h := hd c hc
  simp only [Char.isDigit, Bool.and_eq_true, decide_eq_true_eq] at h
  have hlow : 48 ≤ c.toNat := h.1
  have hhigh : c.toNat ≤ 57 := h.2
  exact ⟨by omega, by omega⟩

theorem IsSign.shows {s : List Char} (hs : IsSign s) : ∀ c ∈ s, Shows c := by
  rcases hs with rfl | rfl | rfl <;> simp [Shows]

theorem IsDecimal.shows {s : List Char} (hs : IsDecimal s) : ∀ c ∈ s, Shows c := by
  cases hs with
  | parts hsign hm he =>
    refine List.forall_mem_append.2 ⟨hsign.shows, List.forall_mem_append.2 ⟨?_, ?_⟩⟩
    · cases hm with
      | whole hw _ => exact hw.shows
      | point hw hf _ =>
        exact List.forall_mem_append.2
          ⟨hw.shows, List.forall_mem_cons.2 ⟨by simp [Shows], hf.shows⟩⟩
    · cases he with
      | none => simp
      | letter hc hs hd _ =>
        refine List.forall_mem_cons.2 ⟨?_, List.forall_mem_append.2 ⟨hs.shows, hd.shows⟩⟩
        rcases hc with rfl | rfl <;> simp [Shows]

theorem IsDecimal.ne_nil {s : List Char} (hs : IsDecimal s) : s ≠ [] := by
  cases hs with
  | parts _ hm _ =>
    cases hm with
    | whole _ hne => simp [hne]
    | point _ _ _ => simp

theorem isBlank_of_shows {c : Char} (hc : Shows c) : Text.isBlank c = false := by
  obtain ⟨hlow, hhigh⟩ := hc
  simp only [Text.isBlank, Bool.or_eq_false_iff, Bool.and_eq_false_iff, decide_eq_false_iff_not]
  omega

theorem trim_of_shows {s : List Char} (hs : ∀ c ∈ s, Shows c) : Text.trim s = s := by
  have hdrop {t : List Char} (ht : ∀ c ∈ t, Shows c) : t.dropWhile Text.isBlank = t := by
    cases t with
    | nil => rfl
    | cons c t => simp [isBlank_of_shows (ht c (List.mem_cons_self ..))]
  rw [Text.trim, hdrop hs, hdrop fun c hc => hs c (List.mem_reverse.1 hc), List.reverse_reverse]

end Binary64

namespace Json

open Binary64 (AllDigits IsMantissa IsDecimal)

def toChar (b : UInt8) : Char := Char.ofNat b.toNat

theorem toNat_toChar (b : UInt8) : (toChar b).toNat = b.toNat := by
  have hlt := b.toNat_lt
  rw [toChar, Char.ofNat, dif_pos (.inl (by omega))]
  rfl

theorem isDigit_toChar (b : UInt8) : (toChar b).isDigit = Bytes.isDigit b := by
  show (decide (48 ≤ (toChar b).toNat) && decide ((toChar b).toNat ≤ 57)) = _
  rw [toNat_toChar]
  rfl

theorem digitsToNat_map_toChar (x : Bytes) : Text.digitsToNat (x.map toChar) = Bytes.toNat x := by
  rw [Text.digitsToNat, Bytes.toNat, List.foldl_map]
  simp only [toNat_toChar]
  rfl

theorem IsDigits.map {x : Bytes} (hx : IsDigits x) :
    AllDigits (x.map toChar) ∧ x.map toChar ≠ [] := by
  refine ⟨fun c hc => ?_, by simpa using hx.1⟩
  obtain ⟨b, hb, rfl⟩ := List.mem_map.1 hc
  exact (isDigit_toChar b).trans (hx.2 b hb)

theorem IsWhole.map {x : Bytes} (hx : IsWhole x) :
    AllDigits (x.map toChar) ∧ x.map toChar ≠ [] := by
  cases hx with
  | zero => exact IsDigits.map ⟨by simp, by decide +kernel⟩
  | digits _ hd => exact hd.map

theorem IsExponent.map {x : Bytes} (hx : IsExponent x) : Binary64.IsExponent (x.map toChar) := by
  cases hx with
  | none => exact .none
  | letter he hs hd =>
    obtain ⟨hdigits, hne⟩ := hd.map
    rw [List.map_cons, List.map_append]
    refine .letter ?_ ?_ hdigits hne
    · rcases he with rfl | rfl
      · exact .inl rfl
      · exact .inr rfl
    · cases hs
      · exact .inl rfl
      · exact .inr (.inl rfl)
      · exact .inr (.inr rfl)

theorem IsUnsigned.map {x : Bytes} (hx : IsUnsigned x) :
    ∃ m e, x.map toChar = m ++ e ∧ IsMantissa m ∧ Binary64.IsExponent e := by
  cases hx with
  | @parts w f e hw hf he =>
    obtain ⟨hwhole, hne⟩ := hw.map
    cases hf with
    | none => exact ⟨_, _, List.map_append .., .whole hwhole hne, he.map⟩
    | @point d hd =>
      have hpoint : toChar (byte '.') = '.' := by decide
      refine ⟨_, _, ?_, .point hwhole hd.map.1 (.inl hne), he.map⟩
      simp [hpoint]

theorem isDecimal_of_isNumber {x : Bytes} (hx : IsNumber x) : IsDecimal (x.map toChar) := by
  cases hx with
  | unsigned hx =>
    obtain ⟨m, e, h, hm, he⟩ := hx.map
    rw [h]
    exact .parts (s := []) (.inl rfl) hm he
  | @negative x hx =>
    obtain ⟨m, e, h, hm, he⟩ := hx.map
    rw [List.map_cons, h]
    exact .parts (s := ['-']) (.inr (.inl rfl)) hm he

end Json

namespace Expression

open Binary64 (AllDigits IsMantissa IsExponent IsDecimal)

theorem allDigits_takeWhile (s : List Char) : AllDigits (s.takeWhile Char.isDigit) :=
  List.all_eq_true.1 (List.all_takeWhile ..)

theorem isSign_takeSign (s : List Char) : Binary64.IsSign (takeSign s).1 := by
  unfold takeSign
  split
  · exact .inr (.inr rfl)
  · exact .inr (.inl rfl)
  · exact .inl rfl

theorem isMantissa_of_mantissa? {s m t : List Char} (h : mantissa? s = some (m, t)) :
    IsMantissa m := by
  unfold mantissa? at h
  dsimp only at h
  split at h
  next u hu =>
    split at h
    · simp at h
    next hempty =>
      obtain ⟨rfl, -⟩ : _ = m ∧ _ := by simpa using h
      refine .point (allDigits_takeWhile s) (allDigits_takeWhile u) ?_
      simpa only [Bool.and_eq_true, List.isEmpty_iff, Classical.not_and_iff_not_or_not] using hempty
  next =>
    split at h
    · simp at h
    next hempty =>
      obtain ⟨rfl, -⟩ : _ = m ∧ _ := by simpa using h
      exact .whole (allDigits_takeWhile s) (by simpa using hempty)

theorem isExponent_of_exponent? {s e t : List Char} (h : exponent? s = some (e, t)) :
    IsExponent e := by
  unfold exponent? at h
  split at h
  · simp only [Option.some.injEq, Prod.mk.injEq] at h
    exact h.1 ▸ .none
  next c u =>
    dsimp only at h
    split at h
    next hc =>
      split at h
      · simp at h
      next hempty =>
        obtain ⟨rfl, -⟩ : _ = e ∧ _ := by simpa using h
        exact .letter (by simpa using hc) (isSign_takeSign u) (allDigits_takeWhile _)
          (by simpa using hempty)
    · simp only [Option.some.injEq, Prod.mk.injEq] at h
      exact h.1 ▸ .none

theorem isDecimal_of_numberToken? {s n t : List Char} (h : numberToken? s = some (n, t)) :
    IsDecimal n := by
  simp only [numberToken?, Option.bind_eq_bind, Option.bind_eq_some_iff] at h
  obtain ⟨⟨m, u⟩, hm, ⟨e, v⟩, he, h⟩ := h
  obtain ⟨rfl, -⟩ : _ = n ∧ _ := by simpa using h
  exact .parts (isSign_takeSign s) (isMantissa_of_mantissa? hm) (isExponent_of_exponent? he)

end Expression

end DocMatch
