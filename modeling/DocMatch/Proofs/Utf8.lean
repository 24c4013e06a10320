import DocMatch.Utf8

/-!
Characters of joined bytes. Where the second part goes on with no byte that could complete a
character begun in the first, the characters of the whole are those of the parts, so bytes can be
checked part by part. Main statements: `scalars_append`, and `text?_ofString`: the bytes of a text
spell that text.
-/

namespace DocMatch.Utf8

/-- Whether `s` goes on with no byte that could complete a character begun before it. -/
def startsFresh (s : Bytes) : Bool := s.head?.all fun b => !isTail b

theorem startsFresh_cons (b : UInt8) (t : Bytes) : startsFresh (b :: t) = !isTail b := rfl

theorem isTail_of_lt {b : UInt8} (h : b < 0x80) : isTail b = false := by
  grind [isTail]

theorem startsFresh_of_lt {b : UInt8} (h : b < 0x80) (t : Bytes) :
    startsFresh (b :: t) = true := by
  rw [startsFresh_cons, isTail_of_lt h, Bool.not_false]

theorem isTail_of_isSecond {lead b : UInt8} (h : isSecond lead b = true) : isTail b = true := by
  grind [isSecond, isTail]

theorem two_append (a : UInt8) (t : Bytes) {s : Bytes} (hs : startsFresh s = true) :
    two a (t ++ s) = ((two a t).1, (two a t).2 ++ s) := by
  cases t with
  | nil => cases s <;> grind [two, startsFresh_cons]
  | cons b t => grind [two]

theorem three_append (a : UInt8) (t : Bytes) {s : Bytes} (hs : startsFresh s = true) :
    three a (t ++ s) = ((three a t).1, (three a t).2 ++ s) := by
  match t, s with
  | [], [] => rfl
  | [], [b] => grind [three, startsFresh_cons, isTail_of_isSecond]
  | [], b :: c :: s => grind [three, startsFresh_cons, isTail_of_isSecond]
  | [b], [] => grind [three]
  | [b], c :: s => grind [three, startsFresh_cons]
  | b :: c :: t, s => grind [three]

theorem four_append (a : UInt8) (t : Bytes) {s : Bytes} (hs : startsFresh s = true) :
    four a (t ++ s) = ((four a t).1, (four a t).2 ++ s) := by
  match t, s with
  | [], [] => rfl
  | [], [b] => grind [four, startsFresh_cons, isTail_of_isSecond]
  | [], [b, c] => grind [four, startsFresh_cons, isTail_of_isSecond]
  | [], b :: c :: d :: s => grind [four, startsFresh_cons, isTail_of_isSecond]
  | [b], [] => grind [four]
  | [b], [c] => grind [four, startsFresh_cons]
  | [b], c :: d :: s => grind [four, startsFresh_cons]
  | [b, c], [] => grind [four]
  | [b, c], d :: s => grind [four, startsFresh_cons]
  | b :: c :: d :: t, s => grind [four]

theorem step_append (a : UInt8) (t : Bytes) {s : Bytes} (hs : startsFresh s = true) :
    step a (t ++ s) = ((step a t).1, (step a t).2 ++ s) := by
  unfold step
  split
  · rfl
  · split
    · exact two_append a t hs
    · split
      · exact three_append a t hs
      · split
        · exact four_append a t hs
        · rfl

theorem scalars_append (s : Bytes) {t : Bytes} (ht : startsFresh t = true) :
    scalars (s ++ t) = scalars s ++ scalars t := by
  induction hn : s.length using Nat.strongRecOn generalizing s with
  | _ n ih =>
    cases s with
    | nil => rw [List.nil_append, scalars_nil, List.nil_append]
    | cons a u =>
      have hu := step_length_le a u
      rw [List.length_cons] at hn
      rw [List.cons_append, scalars_cons, scalars_cons, step_append a u ht,
        ih _ (by omega) (step a u).2 rfl, List.cons_append]

theorem isValid_nil : isValid [] = true := by
  rw [isValid, scalars_nil]
  rfl

theorem isValid_append (s : Bytes) {t : Bytes} (ht : startsFresh t = true) :
    isValid (s ++ t) = (isValid s && isValid t) := by
  rw [isValid, scalars_append s ht, List.all_append]
  rfl

theorem step_of_lt {a : UInt8} (ha : a < 0x80) (t : Bytes) :
    step a t = (some (Char.ofNat a.toNat), t) := by
  rw [step, if_pos ha]

theorem scalars_cons_of_lt {a : UInt8} (ha : a < 0x80) (t : Bytes) :
    scalars (a :: t) = some (Char.ofNat a.toNat) :: scalars t := by
  rw [scalars_cons, step_of_lt ha]

theorem isValid_cons_of_lt {a : UInt8} (ha : a < 0x80) (t : Bytes) :
    isValid (a :: t) = isValid t := by
  rw [isValid, scalars_cons_of_lt ha, List.all_cons, Option.isSome_some, Bool.true_and]
  rfl

theorem isValid_append_of_lt {s : Bytes} (hs : ∀ b ∈ s, b < 0x80) (t : Bytes) :
    isValid (s ++ t) = isValid t := by
  induction s with
  | nil => rfl
  | cons b s ih =>
    rw [List.cons_append, isValid_cons_of_lt (hs b (List.mem_cons_self ..)),
      ih fun c hc => hs c (List.mem_cons_of_mem _ hc)]

theorem lossy_of_lt {s : Bytes} (hs : ∀ b ∈ s, b < 0x80) :
    lossy s = String.ofList (s.map fun b => Char.ofNat b.toNat) := by
  have chars : (scalars s).map (·.getD '\uFFFD') = s.map fun b => Char.ofNat b.toNat := by
    induction s with
    | nil => rw [scalars_nil, List.map_nil, List.map_nil]
    | cons b t ih =>
      rw [scalars_cons_of_lt (hs b (List.mem_cons_self ..)), List.map_cons, List.map_cons,
        ih fun c hc => hs c (List.mem_cons_of_mem _ hc), Option.getD_some]
  rw [lossy, chars]

theorem isTail_of_toNat {b : UInt8} (hb : 0x80 ≤ b.toNat) (hb' : b.toNat ≤ 0xbf) :
    isTail b = true := by
  grind [isTail, UInt8.le_iff_toNat_le]

theorem isSecond_of_toNat {a b : UInt8} (hb : 0x80 ≤ b.toNat) (hb' : b.toNat ≤ 0xbf)
    (he0 : a.toNat = 0xe0 → 0xa0 ≤ b.toNat) (hed : a.toNat = 0xed → b.toNat ≤ 0x9f)
    (hf0 : a.toNat = 0xf0 → 0x90 ≤ b.toNat) (hf4 : a.toNat = 0xf4 → b.toNat ≤ 0x8f) :
    isSecond a b = true := by
  simp only [isSecond, isTail, ← UInt8.toNat_inj, UInt8.le_iff_toNat_le]
  grind

theorem step_two {a b : UInt8} (t : Bytes) (ha : 0xc2 ≤ a.toNat) (ha' : a.toNat ≤ 0xdf)
    (hb : isTail b = true) :
    step a (b :: t) = (some (Char.ofNat (a.toNat % 32 * 64 + b.toNat % 64)), t) := by
  grind [step, two, UInt8.lt_iff_toNat_lt, UInt8.le_iff_toNat_le]

theorem step_three {a b c : UInt8} (t : Bytes) (ha : 0xe0 ≤ a.toNat) (ha' : a.toNat ≤ 0xef)
    (hb : isSecond a b = true) (hc : isTail c = true) :
    step a (b :: c :: t) =
      (some (Char.ofNat (a.toNat % 16 * 4096 + b.toNat % 64 * 64 + c.toNat % 64)), t) := by
  grind [step, three, UInt8.lt_iff_toNat_lt, UInt8.le_iff_toNat_le]

theorem step_four {a b c d : UInt8} (t : Bytes) (ha : 0xf0 ≤ a.toNat) (ha' : a.toNat ≤ 0xf4)
    (hb : isSecond a b = true) (hc : isTail c = true) (hd : isTail d = true) :
    step a (b :: c :: d :: t) =
      (some (Char.ofNat (a.toNat % 8 * 262144 + b.toNat % 64 * 4096 + c.toNat % 64 * 64
        + d.toNat % 64)), t) := by
  grind [step, four, UInt8.lt_iff_toNat_lt, UInt8.le_iff_toNat_le]

theorem isTail_ofNat {n : Nat} (h : n < 64) : isTail (UInt8.ofNat (n + 128)) = true := by
  have hlt : n + 128 < 256 := by omega
  have hn : (UInt8.ofNat (n + 128)).toNat = n + 128 := UInt8.toNat_ofNat_of_lt' hlt
  exact isTail_of_toNat (by omega) (by omega)

theorem isTail_ofNat_eq_false {n : Nat} (hn : n < 256) (h : n < 0x80 ∨ 0xbf < n) :
    isTail (UInt8.ofNat n) = false := by
  have := UInt8.toNat_ofNat_of_lt' hn
  grind [isTail, UInt8.le_iff_toNat_le]

/-- A character's own bytes are read back as that character, whatever follows them. -/
theorem step_encode (c : Char) (t : Bytes) :
    ∃ a u, String.utf8EncodeChar c = a :: u ∧ isTail a = false ∧
      step a (u ++ t) = (some c, t) := by
  have hvalid := c.valid
  have hback : Char.ofNat c.toNat = c := Char.ofNat_toNat c
  have hval : c.val.toNat = c.toNat := rfl
  simp only [UInt32.isValidChar, Nat.isValidChar, hval] at hvalid
  simp only [String.utf8EncodeChar, hval]
  generalize c.toNat = v at *
  have back {n : Nat} (h : n < 256) : (UInt8.ofNat n).toNat = n := UInt8.toNat_ofNat_of_lt' h
  have char {n : Nat} (h : n = v) : some (Char.ofNat n) = some c := by rw [h, hback]
  split
  · refine ⟨_, _, rfl, isTail_ofNat_eq_false (by omega) (by omega), ?_⟩
    have hlt : UInt8.ofNat v < 0x80 := by
      rw [UInt8.lt_iff_toNat_lt, back (by omega)]
      show v < 128
      omega
    rw [List.nil_append, step_of_lt hlt, back (by omega), hback]
  · split
    · refine ⟨_, _, rfl, isTail_ofNat_eq_false (by omega) (by omega), ?_⟩
      rw [List.cons_append, step_two _ (by rw [back] <;> omega) (by rw [back] <;> omega)
        (isTail_ofNat (by omega)), back (by omega), back (by omega), char (by omega), List.nil_append]
    · split
      · refine ⟨_, _, rfl, isTail_ofNat_eq_false (by omega) (by omega), ?_⟩
        rw [List.cons_append, List.cons_append, List.nil_append,
          step_three _ (by rw [back] <;> omega) (by rw [back] <;> omega)
            (isSecond_of_toNat ?_ ?_ ?_ ?_ ?_ ?_) (isTail_ofNat (by omega)),
          back (by omega), back (by omega), back (by omega), char (by omega)]
        all_goals
          repeat rw [back (by omega)]
          omega
      · refine ⟨_, _, rfl, isTail_ofNat_eq_false (by omega) (by omega), ?_⟩
        rw [List.cons_append, List.cons_append, List.cons_append, List.nil_append,
          step_four _ (by rw [back] <;> omega) (by rw [back] <;> omega)
            (isSecond_of_toNat ?_ ?_ ?_ ?_ ?_ ?_) (isTail_ofNat (by omega)) (isTail_ofNat (by omega)),
          back (by omega), back (by omega), back (by omega), back (by omega), char (by omega)]
        all_goals
          repeat rw [back (by omega)]
          omega

theorem scalars_encode (c : Char) (t : Bytes) :
    scalars (String.utf8EncodeChar c ++ t) = some c :: scalars t := by
  obtain ⟨a, u, hc, -, hstep⟩ := step_encode c t
  rw [hc, List.cons_append, scalars_cons, hstep]

theorem startsFresh_encode (c : Char) (t : Bytes) :
    startsFresh (String.utf8EncodeChar c ++ t) = true := by
  obtain ⟨a, u, hc, ha, -⟩ := step_encode c t
  rw [hc, List.cons_append, startsFresh_cons, ha, Bool.not_false]

theorem isValid_encode (c : Char) (t : Bytes) :
    isValid (String.utf8EncodeChar c ++ t) = isValid t := by
  rw [isValid, scalars_encode, List.all_cons, Option.isSome_some, Bool.true_and]
  rfl

theorem encode_ascii_or (c : Char) :
    (∃ b, String.utf8EncodeChar c = [b] ∧ b < 0x80) ∨ ∀ b ∈ String.utf8EncodeChar c, 0x80 ≤ b := by
  have high {n : Nat} (h : 128 ≤ n) (hn : n < 256) : (0x80 : UInt8) ≤ UInt8.ofNat n := by
    rw [UInt8.le_iff_toNat_le, UInt8.toNat_ofNat', Nat.mod_eq_of_lt hn]
    exact h
  simp only [String.utf8EncodeChar]
  split
  next h =>
    refine .inl ⟨_, rfl, ?_⟩
    rw [UInt8.lt_iff_toNat_lt, UInt8.toNat_ofNat', Nat.mod_eq_of_lt (by omega)]
    exact Nat.lt_succ_of_le h
  next =>
    right
    split
    next =>
      simp only [List.mem_cons, List.not_mem_nil, or_false, forall_eq_or_imp, forall_eq]
      exact ⟨high (by omega) (by omega), high (by omega) (by omega)⟩
    next =>
      split
      next =>
        simp only [List.mem_cons, List.not_mem_nil, or_false, forall_eq_or_imp, forall_eq]
        exact ⟨high (by omega) (by omega), high (by omega) (by omega), high (by omega) (by omega)⟩
      next =>
        simp only [List.mem_cons, List.not_mem_nil, or_false, forall_eq_or_imp, forall_eq]
        exact ⟨high (by omega) (by omega), high (by omega) (by omega),
          high (by omega) (by omega), high (by omega) (by omega)⟩

theorem scalars_ofString (s : String) : scalars (Bytes.ofString s) = s.toList.map some := by
  rw [Bytes.ofString]
  induction s.toList with
  | nil => rw [List.flatMap_nil, scalars_nil, List.map_nil]
  | cons c l ih => rw [List.flatMap_cons, scalars_encode, ih, List.map_cons]

theorem mapM_id_map_some {α : Type} (l : List α) : (l.map some).mapM id = some l := by
  induction l with
  | nil => rfl
  | cons a l ih => simp [ih]

theorem text?_ofString (s : String) : text? (Bytes.ofString s) = some s := by
  rw [text?, scalars_ofString, mapM_id_map_some, Option.map_some, String.ofList_toList]

/-- Bytes spell a text if and only if no run of them fails to form a character. -/
theorem lossy_ofString (s : String) : lossy (Bytes.ofString s) = s := by
  rw [lossy, scalars_ofString, List.map_map]
  simp [Function.comp_def]

theorem isSome_text? (s : Bytes) : (text? s).isSome = isValid s := by
  have all (l : List (Option Char)) : (l.mapM id).isSome = l.all Option.isSome := by
    induction l with
    | nil => rfl
    | cons c l ih =>
      rw [List.mapM_cons, List.all_cons, ← ih]
      cases c with
      | none => rfl
      | some c => cases l.mapM id <;> rfl
  rw [text?, Option.isSome_map, all, isValid]

end DocMatch.Utf8
