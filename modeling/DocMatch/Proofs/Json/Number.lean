import DocMatch.Json.Number
import DocMatch.Proofs.Json.Literal
import DocMatch.Proofs.Sequence

/-!
Number literals against their grammar: the reader takes exactly the literals, and as much of the
input as belongs to one. Main statements: `readNumber_sound` and `readNumber_complete`.
-/

namespace DocMatch.Json

def IsDigits (x : Bytes) : Prop := x ≠ [] ∧ ∀ b ∈ x, Bytes.isDigit b = true

inductive IsWhole : Bytes → Prop where
  | zero : IsWhole [byte '0']
  | digits {b : UInt8} {t : Bytes} : b ≠ byte '0' → IsDigits (b :: t) → IsWhole (b :: t)

inductive IsFraction : Bytes → Prop where
  | none : IsFraction []
  | point {x : Bytes} : IsDigits x → IsFraction (byte '.' :: x)

inductive IsSign : Bytes → Prop where
  | none : IsSign []
  | minus : IsSign [byte '-']
  | plus : IsSign [byte '+']

inductive IsExponent : Bytes → Prop where
  | none : IsExponent []
  | letter {e : UInt8} {s x : Bytes} :
      e = byte 'e' ∨ e = byte 'E' → IsSign s → IsDigits x → IsExponent (e :: (s ++ x))

inductive IsUnsigned : Bytes → Prop where
  | parts {w f e : Bytes} : IsWhole w → IsFraction f → IsExponent e → IsUnsigned (w ++ (f ++ e))

inductive IsNumber : Bytes → Prop where
  | unsigned {x : Bytes} : IsUnsigned x → IsNumber x
  | negative {x : Bytes} : IsUnsigned x → IsNumber (byte '-' :: x)

def endsDigits (t : Bytes) : Bool := t.head?.all fun b => !Bytes.isDigit b

/-- Whether nothing of a number goes on where `t` begins. -/
def endsNumber (t : Bytes) : Bool :=
  t.head?.all fun b => !(Bytes.isDigit b || b == byte '.' || b == byte 'e' || b == byte 'E')

theorem endsDigits_of_endsNumber {t : Bytes} (ht : endsNumber t = true) :
    endsDigits t = true := by
  cases t with
  | nil => rfl
  | cons b t => grind [endsNumber, endsDigits]

theorem takeWhile_digits {x t : Bytes} (hx : ∀ b ∈ x, Bytes.isDigit b = true)
    (ht : endsDigits t = true) :
    (x ++ t).takeWhile Bytes.isDigit = x ∧ (x ++ t).dropWhile Bytes.isDigit = t := by
  refine span_append hx fun b hb => ?_
  rw [Option.mem_def] at hb
  simpa [endsDigits, hb] using ht

theorem isDigits_cons_takeWhile {b : UInt8} (t : Bytes) (hb : Bytes.isDigit b = true) :
    IsDigits (b :: t.takeWhile Bytes.isDigit) := by
  refine ⟨List.cons_ne_nil _ _, fun c hc => ?_⟩
  rcases List.mem_cons.1 hc with rfl | hc
  · exact hb
  · exact List.all_eq_true.1 (List.all_takeWhile ..) c hc

variable {atEnd : Cause}

theorem readWhole_sound {s w : Bytes} {r : Rest s} (h : readWhole atEnd s = .ok (w, r)) :
    IsWhole w ∧ s = w ++ r.bytes := by
  cases s with
  | nil => simp [readWhole] at h
  | cons b t =>
    rw [readWhole] at h
    split at h
    next hb =>
      split at h
      · simp at h
      · obtain ⟨rfl, rfl⟩ : [b] = w ∧ Rest.tail b t = r := by simpa using h
        exact ⟨hb ▸ .zero, rfl⟩
    next hb =>
      split at h
      next hd =>
        obtain ⟨rfl, rfl⟩ : b :: t.takeWhile Bytes.isDigit = w ∧ _ = r := by simpa using h
        refine ⟨.digits hb (isDigits_cons_takeWhile t hd), ?_⟩
        rw [Rest.dropWhile_bytes, Rest.tail_bytes, List.cons_append,
          List.takeWhile_append_dropWhile]
      · simp at h

theorem readWhole_complete (atEnd : Cause) {w t : Bytes} (hw : IsWhole w)
    (ht : endsDigits t = true) :
    Reads (readWhole atEnd (w ++ t)) w t := by
  cases hw with
  | zero =>
    have hany : ¬ t.head?.any Bytes.isDigit = true := by
      cases t with
      | nil => simp
      | cons b t => simpa [endsDigits] using ht
    rw [List.cons_append, readWhole, if_pos rfl, List.nil_append, if_neg hany]
    exact ⟨_, rfl, rfl⟩
  | @digits b u hb hu =>
    obtain ⟨htake, hdrop⟩ :=
      takeWhile_digits (fun c hc => hu.2 c (List.mem_cons_of_mem _ hc)) ht
    rw [List.cons_append, readWhole, if_neg hb, if_pos (hu.2 b (List.mem_cons_self ..)), htake]
    exact ⟨_, rfl, hdrop⟩

theorem readFraction_sound {s : Bytes} {r q : Rest s} {digits : Option Bytes}
    (h : readFraction atEnd r = .ok (digits, q)) :
    ∃ f, IsFraction f ∧ r.bytes = f ++ q.bytes := by
  unfold readFraction at h
  split at h
  · obtain ⟨-, rfl⟩ : none = digits ∧ r = q := by simpa using h
    exact ⟨[], .none, rfl⟩
  next b t hr =>
    split at h
    next hb =>
      split at h
      · simp at h
      · dsimp only at h
        split at h
        · simp at h
        next hne =>
          obtain ⟨-, rfl⟩ : _ ∧ _ = q := by simpa using h
          refine ⟨byte '.' :: t.takeWhile Bytes.isDigit, .point ⟨?_, ?_⟩, ?_⟩
          · simpa using hne
          · exact List.all_eq_true.1 (List.all_takeWhile ..)
          · refine hr.trans ?_
            rw [Rest.dropWhile_bytes, Rest.next_bytes, List.cons_append,
              List.takeWhile_append_dropWhile, hb]
    next hb =>
      obtain ⟨-, rfl⟩ : none = digits ∧ r = q := by simpa using h
      exact ⟨[], .none, rfl⟩

theorem readFraction_complete (atEnd : Cause) {f t : Bytes} (hf : IsFraction f)
    (ht : endsDigits t = true) (hpoint : t.head? ≠ some (byte '.'))
    {s : Bytes} {r : Rest s} (hr : r.bytes = f ++ t) :
    ∃ digits, Reads (readFraction atEnd r) digits t := by
  cases hf with
  | none =>
    refine ⟨none, r, ?_, hr⟩
    unfold readFraction
    split
    · rfl
    next b u h =>
      have hb : b ≠ byte '.' := by
        rintro rfl
        rw [List.nil_append] at hr
        simp [← hr, h] at hpoint
      rw [if_neg hb]
  | @point x hx =>
    refine ⟨some x, ?_⟩
    unfold readFraction
    split
    next h => simp [h] at hr
    next b u h =>
      obtain ⟨rfl, rfl⟩ : b = byte '.' ∧ u = x ++ t := by simpa using h.symm.trans hr
      obtain ⟨htake, hdrop⟩ := takeWhile_digits hx.2 ht
      have hne : ¬ (x ++ t).isEmpty = true := by simp [hx.1]
      have hne' : ¬ x.isEmpty = true := by simp [hx.1]
      dsimp only
      rw [if_pos rfl, if_neg hne, htake, if_neg hne']
      exact ⟨_, rfl, hdrop⟩

theorem readSign_sound {s : Bytes} (r : Rest s) :
    ∃ sign, IsSign sign ∧ r.bytes = sign ++ (readSign r).2.bytes := by
  unfold readSign
  split
  · exact ⟨[], .none, rfl⟩
  next b t hr =>
    split
    next hb => exact ⟨[byte '-'], .minus, hb ▸ hr⟩
    · split
      next hb => exact ⟨[byte '+'], .plus, hb ▸ hr⟩
      · exact ⟨[], .none, rfl⟩

theorem readSign_complete {sign x t : Bytes} (hsign : IsSign sign) (hx : IsDigits x) {s : Bytes}
    {r : Rest s} (hr : r.bytes = sign ++ (x ++ t)) : (readSign r).2.bytes = x ++ t := by
  unfold readSign
  split
  next h =>
    rw [h] at hr
    simp [hx.1] at hr
  next b u h =>
    cases hsign with
    | none =>
      cases x with
      | nil => exact absurd rfl hx.1
      | cons d x =>
        have hd := hx.2 d (List.mem_cons_self ..)
        obtain ⟨rfl, -⟩ : b = d ∧ u = x ++ t := by simpa using h.symm.trans hr
        have hminus : b ≠ byte '-' := by rintro rfl; exact absurd hd (by decide)
        have hplus : b ≠ byte '+' := by rintro rfl; exact absurd hd (by decide)
        rw [if_neg hminus, if_neg hplus]
        exact hr
    | minus =>
      obtain ⟨rfl, rfl⟩ : b = byte '-' ∧ u = x ++ t := by simpa using h.symm.trans hr
      rfl
    | plus =>
      obtain ⟨rfl, rfl⟩ : b = byte '+' ∧ u = x ++ t := by simpa using h.symm.trans hr
      rfl

theorem readExponent_sound {s : Bytes} {r q : Rest s} {exponent : Option (Bool × Bytes)}
    (h : readExponent atEnd r = .ok (exponent, q)) :
    ∃ e, IsExponent e ∧ r.bytes = e ++ q.bytes := by
  unfold readExponent at h
  split at h
  · obtain ⟨-, rfl⟩ : none = exponent ∧ r = q := by simpa using h
    exact ⟨[], .none, rfl⟩
  next b t hr =>
    split at h
    next hb =>
      dsimp only at h
      obtain ⟨sign, hsign, ht⟩ := readSign_sound (r.next hr)
      split at h
      · simp at h
      next c u hu =>
        split at h
        next hc =>
          obtain ⟨-, rfl⟩ : _ ∧ _ = q := by simpa using h
          refine ⟨_, .letter hb hsign (isDigits_cons_takeWhile u hc), ?_⟩
          rw [Rest.next_bytes, hu] at ht
          refine hr.trans ?_
          rw [Rest.dropWhile_bytes, hu, ht, List.dropWhile_cons_of_pos hc, List.cons_append,
            List.append_assoc, List.cons_append, List.takeWhile_append_dropWhile]
        · simp at h
    · obtain ⟨-, rfl⟩ : none = exponent ∧ r = q := by simpa using h
      exact ⟨[], .none, rfl⟩

theorem readExponent_complete (atEnd : Cause) {e t : Bytes} (he : IsExponent e)
    (ht : endsNumber t = true) {s : Bytes} {r : Rest s} (hr : r.bytes = e ++ t) :
    ∃ exponent, Reads (readExponent atEnd r) exponent t := by
  cases he with
  | none =>
    refine ⟨none, r, ?_, hr⟩
    unfold readExponent
    split
    · rfl
    next b u h =>
      have hb : ¬ (b = byte 'e' ∨ b = byte 'E') := by
        rw [List.nil_append] at hr
        rw [← hr, h] at ht
        grind [endsNumber]
      rw [if_neg hb]
  | @letter c sign x hc hsign hx =>
    unfold readExponent
    split
    next h => simp [h] at hr
    next b u h =>
      obtain ⟨rfl, rfl⟩ : b = c ∧ u = sign ++ (x ++ t) := by simpa using h.symm.trans hr
      have hq := readSign_complete hsign hx (r := r.next h) rfl
      obtain ⟨htake, hdrop⟩ := takeWhile_digits hx.2 (endsDigits_of_endsNumber ht)
      cases x with
      | nil => exact absurd rfl hx.1
      | cons d x =>
        have hd := hx.2 d (List.mem_cons_self ..)
        rw [if_pos hc]
        dsimp only
        split
        next hnil => simp [hnil] at hq
        next d' u' hu' =>
          obtain ⟨rfl, rfl⟩ : d' = d ∧ u' = x ++ t := by simpa using hu'.symm.trans hq
          rw [if_pos hd]
          refine ⟨_, _, rfl, ?_⟩
          rw [Rest.dropWhile_bytes, hq, hdrop]

theorem endsDigits_append {x t : Bytes} (hx : endsDigits x = true) (ht : endsDigits t = true) :
    endsDigits (x ++ t) = true := by
  cases x with
  | nil => exact ht
  | cons b x => exact hx

theorem IsExponent.endsDigits {e : Bytes} (he : IsExponent e) : endsDigits e = true := by
  cases he with
  | none => rfl
  | letter hc _ _ => rcases hc with rfl | rfl <;> rfl

theorem IsFraction.endsDigits {f : Bytes} (hf : IsFraction f) : endsDigits f = true := by
  cases hf <;> rfl

theorem IsExponent.head?_ne {e t : Bytes} (he : IsExponent e) (ht : endsNumber t = true) :
    (e ++ t).head? ≠ some (byte '.') := by
  cases he with
  | none =>
    cases t with
    | nil => simp
    | cons b t => grind [endsNumber]
  | letter hc _ _ => rcases hc with rfl | rfl <;> simp <;> decide

theorem readUnsigned_sound {s : Bytes} {literal : NumberLiteral} {r : Rest s}
    (h : readUnsigned atEnd s = .ok (literal, r)) : ∃ x, IsUnsigned x ∧ s = x ++ r.bytes := by
  simp only [readUnsigned, bind_eq_ok_iff] at h
  obtain ⟨whole, hw, fraction, hf, exponent, he, heq⟩ := h
  obtain ⟨-, rfl⟩ := Prod.mk.inj (Except.ok.inj heq)
  obtain ⟨hw, hs⟩ := readWhole_sound hw
  obtain ⟨f, hf, hsf⟩ := readFraction_sound hf
  obtain ⟨e, he, hse⟩ := readExponent_sound he
  refine ⟨_, .parts hw hf he, hs.trans ?_⟩
  rw [hsf, hse, List.append_assoc, List.append_assoc]

theorem readUnsigned_complete (atEnd : Cause) {x t : Bytes} (hx : IsUnsigned x)
    (ht : endsNumber t = true) :
    ∃ literal, Reads (readUnsigned atEnd (x ++ t)) literal t := by
  cases hx with
  | @parts w f e hw hf he =>
    have het : endsDigits (e ++ t) = true :=
      endsDigits_append he.endsDigits (endsDigits_of_endsNumber ht)
    obtain ⟨q₁, h₁, ht₁⟩ :=
      readWhole_complete atEnd hw (endsDigits_append hf.endsDigits het)
    obtain ⟨fraction, q₂, h₂, ht₂⟩ :=
      readFraction_complete atEnd hf het (he.head?_ne ht) ht₁
    obtain ⟨exponent, q₃, h₃, ht₃⟩ := readExponent_complete atEnd he ht ht₂
    rw [List.append_assoc, List.append_assoc]
    refine ⟨{ negative := false, whole := w, fraction, exponent }, q₃, ?_, ht₃⟩
    simp only [readUnsigned, bind, Except.bind, h₁, h₂, h₃]
    rfl

theorem IsUnsigned.exists_cons {x : Bytes} (hx : IsUnsigned x) :
    ∃ b t, x = b :: t ∧ Bytes.isDigit b = true := by
  cases hx with
  | parts hw _ _ =>
    cases hw with
    | zero => exact ⟨_, _, rfl, by decide⟩
    | digits _ hd => exact ⟨_, _, rfl, hd.2 _ (List.mem_cons_self ..)⟩

theorem readNumber_sound {s : Bytes} {literal : NumberLiteral} {r : Rest s}
    (h : readNumber atEnd s = .ok (literal, r)) : ∃ x, IsNumber x ∧ s = x ++ r.bytes := by
  cases s with
  | nil => simp [readNumber] at h
  | cons b t =>
    rw [readNumber] at h
    split at h
    next hb =>
      obtain ⟨v, hv, heq⟩ := bind_eq_ok_iff.1 h
      obtain ⟨-, rfl⟩ := Prod.mk.inj (Except.ok.inj heq)
      obtain ⟨x, hx, ht⟩ := readUnsigned_sound hv
      exact ⟨byte '-' :: x, .negative hx, by rw [hb, List.cons_append]; exact congrArg _ ht⟩
    next hb =>
      obtain ⟨x, hx, ht⟩ := readUnsigned_sound h
      exact ⟨x, .unsigned hx, ht⟩

theorem readNumber_complete (atEnd : Cause) {x t : Bytes} (hx : IsNumber x)
    (ht : endsNumber t = true) :
    ∃ literal, Reads (readNumber atEnd (x ++ t)) literal t := by
  cases hx with
  | unsigned hx =>
    obtain ⟨b, u, rfl, hb⟩ := hx.exists_cons
    have hminus : b ≠ byte '-' := by rintro rfl; exact absurd hb (by decide)
    rw [List.cons_append, readNumber, if_neg hminus]
    exact readUnsigned_complete atEnd hx ht
  | negative hx =>
    obtain ⟨literal, q, hq, hqt⟩ := readUnsigned_complete atEnd hx ht
    rw [List.cons_append, readNumber, if_pos rfl]
    refine ⟨{ literal with negative := true }, (Rest.tail _ _).andThen q, ?_, hqt⟩
    simp only [bind, Except.bind, hq]
    rfl

end DocMatch.Json
