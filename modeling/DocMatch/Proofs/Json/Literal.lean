import DocMatch.Json.Literal
import DocMatch.Proofs.Utf8

/-!
String literals against their grammar. The inside of a literal is a sequence of pieces, each a byte
that stands for itself or an escape, and it denotes text if its surrogates come in pairs. Passing
over a literal accepts exactly such sequences, decoding one accepts exactly those that denote text.
Main statements: `closeString_sound`, `closeString_complete`, `readString_complete`, and
`spells_escape`: what is written for a text denotes it.
-/

namespace DocMatch.Json

def Reads {α : Type} {s : Bytes} (result : Except Fault (α × Rest s)) (a : α) (t : Bytes) : Prop :=
  ∃ q, result = .ok (a, q) ∧ q.bytes = t

def Skips {s : Bytes} (result : Except Fault (Rest s)) (t : Bytes) : Prop :=
  ∃ q, result = .ok q ∧ q.bytes = t

inductive IsPiece : Piece → Bytes → Prop where
  | plain {b : UInt8} : b ≠ byte '"' → b ≠ byte '\\' → ¬ b < 0x20 → IsPiece (.plain b) [b]
  | short {e b : UInt8} : escaped? e = some b → IsPiece (.plain b) [byte '\\', e]
  | unit {a b c d : UInt8} {n : Nat} :
      hexUnit? a b c d = some n → IsPiece (.unit n) [byte '\\', byte 'u', a, b, c, d]

/-- The bytes between the quotation marks of a literal, piece by piece. -/
inductive Body : List Piece → Bytes → Prop where
  | nil : Body [] []
  | cons {p : Piece} {ps : List Piece} {x y : Bytes} :
      IsPiece p x → Body ps y → Body (p :: ps) (x ++ y)

def pairedChar (high low : Nat) : Char :=
  Char.ofNat (0x10000 + (high - 0xd800) * 0x400 + (low - 0xdc00))

/-- The bytes that pieces stand for, surrogates only in pairs. -/
inductive Denotes : List Piece → Bytes → Prop where
  | nil : Denotes [] []
  | plain (b : UInt8) {ps : List Piece} {out : Bytes} :
      Denotes ps out → Denotes (.plain b :: ps) (b :: out)
  | unit {n : Nat} {ps : List Piece} {out : Bytes} :
      isLowSurrogate n = false → isHighSurrogate n = false → Denotes ps out →
      Denotes (.unit n :: ps) (String.utf8EncodeChar (Char.ofNat n) ++ out)
  | pair {n m : Nat} {ps : List Piece} {out : Bytes} :
      isHighSurrogate n = true → isLowSurrogate m = true → Denotes ps out →
      Denotes (.unit n :: .unit m :: ps) (String.utf8EncodeChar (pairedChar n m) ++ out)

/-- The bytes `b` between quotation marks are a literal, whether or not it denotes text. -/
def IsBody (b : Bytes) : Prop := ∃ ps, Body ps b

/-- The bytes `b` between quotation marks denote `text`. -/
def Spells (b : Bytes) (text : String) : Prop :=
  Utf8.isValid b = true ∧ ∃ ps out, Body ps b ∧ Denotes ps out ∧ Utf8.text? out = some text

theorem Spells.isBody {b : Bytes} {text : String} (h : Spells b text) : IsBody b := by
  obtain ⟨-, ps, -, hb, -⟩ := h
  exact ⟨ps, hb⟩

theorem readUnit_complete {s : Bytes} {r : Rest s} {a b c d : UInt8} {n : Nat} {t : Bytes}
    (hr : r.bytes = a :: b :: c :: d :: t) (hn : hexUnit? a b c d = some n) :
    Reads (readUnit r) n t := by
  unfold readUnit
  split
  next a' b' c' d' t' h =>
    obtain ⟨rfl, rfl, rfl, rfl, rfl⟩ : a' = a ∧ b' = b ∧ c' = c ∧ d' = d ∧ t' = t := by
      simpa using h.symm.trans hr
    rw [hn]
    exact ⟨_, rfl, rfl⟩
  next hne => exact absurd hr (hne a b c d t)

theorem readUnit_sound {s : Bytes} {r q : Rest s} {n : Nat} (h : readUnit r = .ok (n, q)) :
    ∃ a b c d, r.bytes = a :: b :: c :: d :: q.bytes ∧ hexUnit? a b c d = some n := by
  unfold readUnit at h
  split at h
  next a b c d t hr =>
    dsimp only at h
    split at h
    next m hm =>
      obtain ⟨rfl, rfl⟩ : m = n ∧ _ = q := by simpa using h
      exact ⟨a, b, c, d, hr, hm⟩
    · simp at h
  · simp at h

theorem escaped?_u : escaped? (byte 'u') = none := by decide

theorem readEscape_complete {p : Piece} {x t : Bytes} {s : Bytes} {r : Rest s}
    (hp : IsPiece p (byte '\\' :: x)) (hr : r.bytes = x ++ t) : Reads (readEscape r) p t := by
  cases hp with
  | plain _ hne => exact absurd rfl hne
  | @short e b he =>
    have hu : e ≠ byte 'u' := by
      rintro rfl
      simp [escaped?_u] at he
    unfold readEscape
    split
    next h => simp [h] at hr
    next e' t' h =>
      obtain ⟨rfl, rfl⟩ : e' = e ∧ t' = t := by simpa using h.symm.trans hr
      rw [if_neg hu, he]
      exact ⟨_, rfl, rfl⟩
  | @unit a b c d n hn =>
    unfold readEscape
    split
    next h => simp [h] at hr
    next e' t' h =>
      obtain ⟨rfl, rfl⟩ : e' = byte 'u' ∧ t' = a :: b :: c :: d :: t := by
        simpa using h.symm.trans hr
      obtain ⟨q, hq, ht⟩ := readUnit_complete (r := r.next h) rfl hn
      rw [if_pos rfl, hq]
      exact ⟨q, rfl, ht⟩

theorem readEscape_sound {p : Piece} {s : Bytes} {r q : Rest s} (h : readEscape r = .ok (p, q)) :
    ∃ x, IsPiece p (byte '\\' :: x) ∧ r.bytes = x ++ q.bytes := by
  unfold readEscape at h
  split at h
  · simp at h
  next e t hr =>
    split at h
    next he =>
      split at h
      next n q' hq =>
        obtain ⟨rfl, rfl⟩ : Piece.unit n = p ∧ q' = q := by simpa using h
        obtain ⟨a, b, c, d, ht, hn⟩ := readUnit_sound hq
        refine ⟨[e, a, b, c, d], he ▸ .unit hn, ?_⟩
        rw [hr, ← Rest.next_bytes r hr, ht]
        rfl
      · simp at h
    next he =>
      split at h
      next b hb =>
        obtain ⟨rfl, rfl⟩ : Piece.plain b = p ∧ r.next hr = q := by simpa using h
        exact ⟨[e], .short hb, hr⟩
      · simp at h

theorem nextPiece_complete {p : Piece} {x t : Bytes} (hp : IsPiece p x) :
    Reads (nextPiece (x ++ t)) p t := by
  have escape {y : Bytes} (hy : IsPiece p (byte '\\' :: y)) :
      Reads (nextPiece (byte '\\' :: (y ++ t))) p t := by
    rw [nextPiece, if_neg (by decide), if_pos rfl]
    exact readEscape_complete hy rfl
  cases hp with
  | plain hq hs hc =>
    rw [List.cons_append, nextPiece, if_neg hq, if_neg hs, if_neg hc]
    exact ⟨_, rfl, rfl⟩
  | short he => exact escape (.short he)
  | unit hn => exact escape (.unit hn)

theorem nextPiece_of_bytes {p : Piece} {x y t : Bytes} (hp : IsPiece p x) {s : Bytes} {r : Rest s}
    (hr : r.bytes = x ++ y ++ t) : Reads (nextPiece r.bytes) p (y ++ t) := by
  rw [hr, List.append_assoc]
  exact nextPiece_complete hp

theorem nextPiece_sound {p : Piece} {s : Bytes} {q : Rest s} (h : nextPiece s = .ok (p, q)) :
    p = .control ∨ p = .close ∧ s = byte '"' :: q.bytes ∨ ∃ x, IsPiece p x ∧ s = x ++ q.bytes := by
  cases s with
  | nil => simp [nextPiece] at h
  | cons b t =>
    rw [nextPiece] at h
    split at h
    next hb =>
      obtain ⟨rfl, rfl⟩ : Piece.close = p ∧ Rest.tail b t = q := by simpa using h
      exact .inr (.inl ⟨rfl, by rw [hb]; rfl⟩)
    next hb =>
      split at h
      next hs =>
        subst hs
        obtain ⟨x, hx, ht⟩ := readEscape_sound h
        exact .inr (.inr ⟨byte '\\' :: x, hx, congrArg (byte '\\' :: ·) ht⟩)
      next hs =>
        split at h
        · obtain ⟨rfl, -⟩ : Piece.control = p ∧ _ := by simpa using h
          exact .inl rfl
        next hc =>
          obtain ⟨rfl, rfl⟩ : Piece.plain b = p ∧ Rest.tail b t = q := by simpa using h
          exact .inr (.inr ⟨[b], .plain hb hs hc, rfl⟩)

theorem nextPiece_close (t : Bytes) : nextPiece (byte '"' :: t) = .ok (.close, .tail _ t) := by
  rw [nextPiece, if_pos rfl]

theorem closeString_complete {ps : List Piece} {b t : Bytes} (hb : Body ps b) {s : Bytes}
    {r : Rest s} (hr : r.bytes = b ++ byte '"' :: t) : Skips (closeString r) t := by
  induction hb generalizing r with
  | nil =>
    have hclose : Reads (nextPiece r.bytes) .close t := hr ▸ ⟨_, nextPiece_close t, rfl⟩
    obtain ⟨q, hq, ht⟩ := hclose
    rw [closeString, hq]
    exact ⟨_, rfl, ht⟩
  | @cons p ps x y hp hy ih =>
    obtain ⟨q, hq, ht⟩ := nextPiece_of_bytes hp hr
    rw [closeString, hq]
    cases hp with
    | plain => exact ih ht
    | short => exact ih ht
    | unit => exact ih ht

theorem closeString_sound {s : Bytes} {r q : Rest s} (h : closeString r = .ok q) :
    ∃ b, IsBody b ∧ r.bytes = b ++ byte '"' :: q.bytes := by
  fun_induction closeString r with
  | case1 => simp at h
  | case2 r q' hq =>
    obtain rfl : r.andThen q' = q := by simpa using h
    rcases nextPiece_sound hq with h | ⟨-, h⟩ | ⟨x, hx, -⟩
    · simp at h
    · exact ⟨[], ⟨[], .nil⟩, h⟩
    · cases hx
  | case3 => simp at h
  | case4 r p q' hclose hcontrol hq ih =>
    obtain ⟨b, ⟨ps, hb⟩, ht⟩ := ih h
    rcases nextPiece_sound hq with h | ⟨h, -⟩ | ⟨x, hx, hs⟩
    · exact absurd h hcontrol
    · exact absurd h hclose
    · exact ⟨x ++ b, ⟨p :: ps, .cons hx hb⟩, by rw [hs, List.append_assoc, ← ht]; rfl⟩

theorem takeEscapeByte_complete {s : Bytes} {r : Rest s} {b : UInt8} {t : Bytes}
    (hr : r.bytes = b :: t) : Skips (takeEscapeByte b r) t := by
  unfold takeEscapeByte
  split
  next h => simp [h] at hr
  next c u h =>
    obtain ⟨rfl, rfl⟩ : c = b ∧ u = t := by simpa using h.symm.trans hr
    rw [if_pos rfl]
    exact ⟨_, rfl, rfl⟩

theorem readLowSurrogate_complete {m : Nat} {x t : Bytes} {s : Bytes} {r : Rest s}
    (hx : IsPiece (.unit m) x) (hm : isLowSurrogate m = true) (hr : r.bytes = x ++ t) :
    Reads (readLowSurrogate r) m t := by
  cases hx with
  | unit hn =>
    obtain ⟨q₁, h₁, ht₁⟩ := takeEscapeByte_complete hr
    obtain ⟨q₂, h₂, ht₂⟩ := takeEscapeByte_complete ht₁
    obtain ⟨q₃, h₃, ht₃⟩ := readUnit_complete ht₂ hn
    refine ⟨q₃, ?_, ht₃⟩
    simp only [readLowSurrogate, bind, Except.bind, h₁, h₂, h₃, hm]
    rfl

theorem not_isLowSurrogate {n : Nat} (h : isHighSurrogate n = true) :
    isLowSurrogate n = false := by
  simp only [isHighSurrogate, isLowSurrogate, Bool.and_eq_true, decide_eq_true_eq,
    Bool.and_eq_false_iff, decide_eq_false_iff_not] at h ⊢
  omega

theorem readScalar_single {n : Nat} {s : Bytes} (r : Rest s) (hl : isLowSurrogate n = false)
    (hh : isHighSurrogate n = false) : readScalar n r = .ok (Char.ofNat n, r) := by
  rw [readScalar, hl, hh]
  rfl

theorem readScalar_pair {n m : Nat} {x t : Bytes} {s : Bytes} {r : Rest s}
    (hn : isHighSurrogate n = true) (hm : isLowSurrogate m = true) (hx : IsPiece (.unit m) x)
    (hr : r.bytes = x ++ t) : Reads (readScalar n r) (pairedChar n m) t := by
  obtain ⟨q, hq, ht⟩ := readLowSurrogate_complete hx hm hr
  refine ⟨q, ?_, ht⟩
  simp only [readScalar, not_isLowSurrogate hn, hn, bind, Except.bind, hq]
  rfl

theorem decodeBytes_complete {ps : List Piece} {b out t : Bytes} (hb : Body ps b)
    (hd : Denotes ps out) (read : Bytes) {s : Bytes} {r : Rest s}
    (hr : r.bytes = b ++ byte '"' :: t) : Reads (decodeBytes read r) (read.reverse ++ out) t := by
  induction hd generalizing b read r with
  | nil =>
    cases hb
    have hclose : Reads (nextPiece r.bytes) .close t := hr ▸ ⟨_, nextPiece_close t, rfl⟩
    obtain ⟨q, hq, ht⟩ := hclose
    rw [decodeBytes, hq, List.append_nil]
    exact ⟨_, rfl, ht⟩
  | plain c _ ih =>
    cases hb with
    | cons hp hy =>
      obtain ⟨q, hq, ht⟩ := nextPiece_of_bytes hp hr
      obtain ⟨e, he, ht'⟩ := ih hy (c :: read) (r := r.andThen q) ht
      rw [decodeBytes, hq]
      exact ⟨e, by simpa using he, ht'⟩
  | @unit n _ _ hl hh _ ih =>
    cases hb with
    | cons hp hy =>
      obtain ⟨q, hq, ht⟩ := nextPiece_of_bytes hp hr
      obtain ⟨e, he, ht'⟩ :=
        ih hy ((String.utf8EncodeChar (Char.ofNat n)).reverse ++ read) (r := r.andThen q) ht
      rw [decodeBytes, hq]
      dsimp only
      rw [readScalar_single q hl hh]
      exact ⟨e, by simpa using he, ht'⟩
  | @pair n m _ _ hn hm _ ih =>
    cases hb with
    | cons hp hy =>
      cases hy with
      | cons hp' hy' =>
        obtain ⟨q, hq, ht⟩ := nextPiece_of_bytes hp hr
        rw [List.append_assoc] at ht
        obtain ⟨q', hq', ht'⟩ := readScalar_pair hn hm hp' ht
        obtain ⟨e, he, ht''⟩ :=
          ih hy' ((String.utf8EncodeChar (pairedChar n m)).reverse ++ read) (r := r.andThen q') ht'
        rw [decodeBytes, hq]
        dsimp only
        rw [hq']
        exact ⟨e, by simpa using he, ht''⟩

theorem readString_complete {b : Bytes} {text : String} (h : Spells b text) {t s : Bytes}
    {r : Rest s} (hr : r.bytes = b ++ byte '"' :: t) : Reads (readString r) text t := by
  obtain ⟨-, ps, out, hb, hd, htext⟩ := h
  obtain ⟨q, hq, ht⟩ := decodeBytes_complete hb hd [] hr
  refine ⟨q, ?_, ht⟩
  rw [List.reverse_nil, List.nil_append] at hq
  simp only [readString, bind, Except.bind, hq, htext]
  rfl

theorem lt_of_escaped? {e b : UInt8} (h : escaped? e = some b) : e < 0x80 ∧ b < 0x80 := by
  unfold escaped? at h
  repeat' split at h
  all_goals cases h <;> (try subst_vars) <;> decide

theorem lt_of_hexValue? {b : UInt8} {n : Nat} (h : Bytes.hexValue? b = some n) : b < 0x80 := by
  have h9 : byte '9' < 0x80 := by decide
  have hf : byte 'f' < 0x80 := by decide
  have hF : byte 'F' < 0x80 := by decide
  grind [Bytes.hexValue?, Bytes.isDigit]

theorem hexUnit?_eq_some {a b c d : UInt8} {n : Nat} (h : hexUnit? a b c d = some n) :
    ∃ i j k l, Bytes.hexValue? a = some i ∧ Bytes.hexValue? b = some j ∧
      Bytes.hexValue? c = some k ∧ Bytes.hexValue? d = some l ∧
      ((i * 16 + j) * 16 + k) * 16 + l = n := by
  simpa only [hexUnit?, Option.bind_eq_bind, Option.bind_eq_some_iff, Option.pure_def,
    Option.some.injEq, exists_and_left] using h

theorem IsPiece.lt_of_mem {p : Piece} {x : Bytes} (h : IsPiece p (byte '\\' :: x)) :
    ∀ b ∈ byte '\\' :: x, b < 0x80 := by
  cases h with
  | plain _ hne => exact absurd rfl hne
  | short he =>
    have := lt_of_escaped? he
    simp only [List.mem_cons, List.not_mem_nil, or_false, forall_eq_or_imp, forall_eq]
    exact ⟨by decide, this.1⟩
  | unit hn =>
    obtain ⟨i, j, k, l, hi, hj, hk, hl, -⟩ := hexUnit?_eq_some hn
    simp only [List.mem_cons, List.not_mem_nil, or_false, forall_eq_or_imp, forall_eq]
    exact ⟨by decide, by decide, lt_of_hexValue? hi, lt_of_hexValue? hj, lt_of_hexValue? hk,
      lt_of_hexValue? hl⟩

theorem isValid_escape_append (front : Bytes) {p : Piece} {x : Bytes}
    (hp : IsPiece p (byte '\\' :: x)) (y : Bytes) :
    Utf8.isValid (front ++ (byte '\\' :: x ++ y)) = (Utf8.isValid front && Utf8.isValid y) := by
  have hfresh : Utf8.startsFresh (byte '\\' :: x ++ y) = true := rfl
  rw [Utf8.isValid_append _ hfresh, Utf8.isValid_append_of_lt hp.lt_of_mem]

theorem isValid_encode_append (front : Bytes) (c : Char) (out : Bytes) :
    Utf8.isValid (front ++ (String.utf8EncodeChar c ++ out)) =
      (Utf8.isValid front && Utf8.isValid out) := by
  rw [Utf8.isValid_append _ (Utf8.startsFresh_encode c out), Utf8.isValid_encode]

/-- What bytes denote is valid if and only if they are. Bytes before an escape may still wait for
the rest of their character, so they are carried along in `front` until the next escape shows
whether one is missing. -/
theorem Denotes.isValid {ps : List Piece} {out b : Bytes} (hd : Denotes ps out) (hb : Body ps b)
    (front : Bytes) : Utf8.isValid (front ++ out) = Utf8.isValid (front ++ b) := by
  induction hd generalizing b front with
  | nil =>
    cases hb
    rfl
  | plain c _ ih =>
    cases hb with
    | @cons _ _ x y hp hy =>
      cases hp with
      | plain =>
        have := ih hy (front ++ [c])
        rw [List.append_assoc, List.append_assoc] at this
        exact this
      | short he =>
        have hc := (lt_of_escaped? he).2
        have hrest := ih hy []
        rw [List.nil_append, List.nil_append] at hrest
        rw [Utf8.isValid_append _ (Utf8.startsFresh_of_lt hc _), Utf8.isValid_cons_of_lt hc,
          isValid_escape_append front (.short he), hrest]
  | unit _ _ _ ih =>
    cases hb with
    | cons hp hy =>
      cases hp with
      | unit hn =>
        have hrest := ih hy []
        rw [List.nil_append, List.nil_append] at hrest
        rw [isValid_encode_append, isValid_escape_append front (.unit hn), hrest]
  | pair _ _ _ ih =>
    cases hb with
    | cons hp hy =>
      cases hy with
      | cons hp' hy' =>
        cases hp with
        | unit hn =>
          cases hp' with
          | unit hm =>
            have hrest := ih hy' []
            have hlow := isValid_escape_append [] (.unit hm)
            simp only [List.nil_append] at hrest hlow
            rw [isValid_encode_append, isValid_escape_append front (.unit hn), hlow, hrest,
              Utf8.isValid_nil, Bool.true_and]

theorem exists_spells {b out : Bytes} {ps : List Piece} (hv : Utf8.isValid b = true)
    (hb : Body ps b) (hd : Denotes ps out) : ∃ text, Spells b text := by
  have hout := (hd.isValid hb []).trans hv
  rw [List.nil_append, ← Utf8.isSome_text?, Option.isSome_iff_exists] at hout
  obtain ⟨text, htext⟩ := hout
  exact ⟨text, hv, ps, out, hb, hd, htext⟩

def escape (text : String) : Bytes := (Bytes.ofString text).flatMap escapeByte

theorem writeString_eq (text : String) :
    writeString text = byte '"' :: escape text ++ [byte '"'] := rfl

theorem hexUnit?_low {b : UInt8} (h : b < 0x20) :
    hexUnit? (byte '0') (byte '0') (b / 16 + byte '0')
      (if b % 16 < 10 then b % 16 + byte '0' else b % 16 - 10 + byte 'a') = some b.toNat := by
  have all : ∀ n : Fin 32, hexUnit? (byte '0') (byte '0') (UInt8.ofNat n / 16 + byte '0')
      (if UInt8.ofNat n % 16 < 10 then UInt8.ofNat n % 16 + byte '0'
        else UInt8.ofNat n % 16 - 10 + byte 'a') = some n.val := by decide
  have hlt : b.toNat < 32 := by simpa [UInt8.lt_iff_toNat_lt] using h
  have := all ⟨b.toNat, hlt⟩
  rwa [UInt8.ofNat_toNat] at this

theorem encode_low {b : UInt8} (h : b < 0x20) :
    String.utf8EncodeChar (Char.ofNat b.toNat) = [b] := by
  have all : ∀ n : Fin 32, String.utf8EncodeChar (Char.ofNat n) = [UInt8.ofNat n] := by decide
  have hlt : b.toNat < 32 := by simpa [UInt8.lt_iff_toNat_lt] using h
  have := all ⟨b.toNat, hlt⟩
  rwa [UInt8.ofNat_toNat] at this

theorem exists_isPiece_escapeByte (b : UInt8) :
    ∃ p, IsPiece p (escapeByte b) ∧ ∀ ps out, Denotes ps out → Denotes (p :: ps) (b :: out) := by
  have short {e : UInt8} (he : escaped? e = some b) :
      ∃ p, IsPiece p [byte '\\', e] ∧
        ∀ ps out, Denotes ps out → Denotes (p :: ps) (b :: out) :=
    ⟨.plain b, .short he, fun _ _ h => .plain b h⟩
  unfold escapeByte
  iterate 7
    split
    next h => exact short (by rw [h]; decide)
  split
  next h =>
    refine ⟨.unit b.toNat, .unit (hexUnit?_low h), fun ps out hd => ?_⟩
    have hlt : b.toNat < 32 := by simpa [UInt8.lt_iff_toNat_lt] using h
    have := Denotes.unit (n := b.toNat) (by grind [isLowSurrogate]) (by grind [isHighSurrogate]) hd
    rwa [encode_low h] at this
  next hq hs _ _ _ _ _ h => exact ⟨.plain b, .plain hq hs h, fun _ _ hd => .plain b hd⟩

theorem exists_body_escape (bs : Bytes) :
    ∃ ps, Body ps (bs.flatMap escapeByte) ∧ Denotes ps bs := by
  induction bs with
  | nil => exact ⟨[], .nil, .nil⟩
  | cons b bs ih =>
    obtain ⟨ps, hb, hd⟩ := ih
    obtain ⟨p, hp, hstep⟩ := exists_isPiece_escapeByte b
    exact ⟨p :: ps, .cons hp hb, hstep ps bs hd⟩

theorem escapeByte_lt {b : UInt8} (h : b < 0x80) : ∀ c ∈ escapeByte b, c < 0x80 := by
  have all : ∀ n : Fin 128, ∀ c ∈ escapeByte (UInt8.ofNat n), c < 0x80 := by
    decide +kernel
  have hlt : b.toNat < 128 := by simpa [UInt8.lt_iff_toNat_lt] using h
  have := all ⟨b.toNat, hlt⟩
  rwa [UInt8.ofNat_toNat] at this

theorem escapeByte_of_le {b : UInt8} (h : 0x80 ≤ b) : escapeByte b = [b] := by
  have hne {c : UInt8} (hc : c < 0x80) : b ≠ c := by
    rintro rfl
    exact absurd hc (UInt8.not_lt.2 h)
  have hlow : ¬ b < 0x20 := UInt8.not_lt.2 (UInt8.le_trans (by decide) h)
  simp only [escapeByte, if_neg hlow, if_neg (hne (by decide : byte '"' < 0x80)),
    if_neg (hne (by decide : byte '\\' < 0x80)), if_neg (hne (by decide : (0x08 : UInt8) < 0x80)),
    if_neg (hne (by decide : (0x0c : UInt8) < 0x80)),
    if_neg (hne (by decide : (0x0a : UInt8) < 0x80)),
    if_neg (hne (by decide : (0x0d : UInt8) < 0x80)),
    if_neg (hne (by decide : (0x09 : UInt8) < 0x80))]

theorem flatMap_escapeByte_of_le {bs : Bytes} (h : ∀ b ∈ bs, 0x80 ≤ b) :
    bs.flatMap escapeByte = bs := by
  induction bs with
  | nil => rfl
  | cons b bs ih =>
    rw [List.flatMap_cons, escapeByte_of_le (h b (List.mem_cons_self ..)),
      ih fun c hc => h c (List.mem_cons_of_mem _ hc), List.singleton_append]

theorem isValid_flatMap_escapeByte (c : Char) (t : Bytes) :
    Utf8.isValid ((String.utf8EncodeChar c).flatMap escapeByte ++ t) = Utf8.isValid t := by
  rcases Utf8.encode_ascii_or c with ⟨b, hb, hlt⟩ | hle
  · rw [hb, List.flatMap_cons, List.flatMap_nil, List.append_nil,
      Utf8.isValid_append_of_lt (escapeByte_lt hlt)]
  · rw [flatMap_escapeByte_of_le hle, Utf8.isValid_encode]

theorem isValid_escape (text : String) : Utf8.isValid (escape text) = true := by
  rw [escape, Bytes.ofString]
  induction text.toList with
  | nil => exact Utf8.isValid_nil
  | cons c l ih => rw [List.flatMap_cons, List.flatMap_append, isValid_flatMap_escapeByte, ih]

theorem spells_escape (text : String) : Spells (escape text) text := by
  obtain ⟨ps, hb, hd⟩ := exists_body_escape (Bytes.ofString text)
  exact ⟨isValid_escape text, ps, _, hb, hd, Utf8.text?_ofString text⟩

end DocMatch.Json
