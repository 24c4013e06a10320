import DocMatch.Substitution
import DocMatch.Proofs.Sequence
import DocMatch.Proofs.Utf8

/-!
Where placeholders stand. A name occurs at a position of a text if its placeholder is written from
there on; the segments of the text are its placeholders and the bytes that are in none. Main
statements: `placeholder?_eq_some_iff`, `Occurs.disjoint` and `mem_placed`.
-/

namespace DocMatch.Substitution

structure IsName (name : String) : Prop where
  nonempty : Bytes.ofString name ≠ []
  isNameByte : ∀ b ∈ Bytes.ofString name, isNameByte b = true

def spelled (name : String) : Bytes :=
  Bytes.ofString "$\x7b\x7b" ++ (Bytes.ofString name ++ Bytes.ofString "\x7d\x7d")

/-- The placeholder of a name stands at position `i`. -/
def Occurs (s : Bytes) (i : Nat) (name : String) : Prop := IsName name ∧ spelled name <+: s.drop i

theorem isNameByte_cases {b : UInt8} (h : isNameByte b = true) :
    b < 0x80 ∧ b ≠ byte '$' ∧ b ≠ byte '}' := by
  have all : ∀ n : Fin 256, isNameByte (UInt8.ofNat n) = true →
      UInt8.ofNat n < 0x80 ∧ UInt8.ofNat n ≠ byte '$' ∧ UInt8.ofNat n ≠ byte '}' := by
    decide +kernel
  have := all ⟨b.toNat, b.toNat_lt⟩
  rw [UInt8.ofNat_toNat] at this
  exact this h

section

variable {w : Bytes} (hw : ∀ b ∈ w, isNameByte b = true)

include hw

theorem nameOf_eq_lossy : nameOf w = Utf8.lossy w :=
  (Utf8.lossy_of_lt fun b hb => (isNameByte_cases (hw b hb)).1).symm

theorem ofString_nameOf : Bytes.ofString (nameOf w) = w := by
  have ascii : ∀ n : Fin 128, String.utf8EncodeChar (Char.ofNat n) = [UInt8.ofNat n] := by decide
  have encode (b : UInt8) (hb : b ∈ w) : String.utf8EncodeChar (Char.ofNat b.toNat) = [b] := by
    have hlt : b.toNat < 128 := UInt8.lt_iff_toNat_lt.1 (isNameByte_cases (hw b hb)).1
    rw [ascii ⟨b.toNat, hlt⟩, UInt8.ofNat_toNat]
  rw [Bytes.ofString, nameOf, String.toList_ofList, List.flatMap_map]
  induction w with
  | nil => rfl
  | cons b w ih =>
    rw [List.flatMap_cons, encode b (List.mem_cons_self ..),
      ih (fun c hc => hw c (List.mem_cons_of_mem _ hc)) fun c hc =>
        encode c (List.mem_cons_of_mem _ hc)]
    rfl

theorem isName_nameOf (hne : w ≠ []) : IsName (nameOf w) := by
  constructor <;> rw [ofString_nameOf hw]
  · exact hne
  · exact hw

end

theorem nameOf_ofString {name : String} (h : IsName name) :
    nameOf (Bytes.ofString name) = name := by
  rw [nameOf_eq_lossy h.isNameByte, Utf8.lossy_ofString]

theorem spelled_append (name : String) (rest : Bytes) :
    spelled name ++ rest = byte '$' :: byte '{' :: byte '{' ::
      (Bytes.ofString name ++ byte '}' :: byte '}' :: rest) := by
  rw [spelled, List.append_assoc, List.append_assoc]
  rfl

theorem placeholder?_spelled {name : String} (h : IsName name) (rest : Bytes) :
    placeholder? (spelled name ++ rest) = some (name, rest) := by
  have hend : ∀ b ∈ (byte '}' :: byte '}' :: rest).head?, isNameByte b = false := by
    intro b hb
    obtain rfl := Option.some.inj hb
    decide
  obtain ⟨htake, hdrop⟩ := span_append h.isNameByte hend
  rw [spelled_append, placeholder?, if_pos ⟨rfl, rfl, rfl⟩]
  dsimp only
  rw [hdrop, htake]
  dsimp only
  rw [if_pos ⟨by simpa using h.nonempty, rfl, rfl⟩, nameOf_ofString h]

theorem placeholder?_sound {s rest : Bytes} {name : String}
    (h : placeholder? s = some (name, rest)) : IsName name ∧ s = spelled name ++ rest := by
  unfold placeholder? at h
  split at h
  next a b c t =>
    split at h
    next hopen =>
      obtain ⟨rfl, rfl, rfl⟩ := hopen
      dsimp only at h
      split at h
      next d e u hu =>
        split at h
        next hclose =>
          obtain ⟨hne, rfl, rfl⟩ := hclose
          obtain ⟨rfl, rfl⟩ := Prod.mk.inj (Option.some.inj h)
          have hw : ∀ b ∈ t.takeWhile isNameByte, isNameByte b = true :=
            List.all_eq_true.1 (List.all_takeWhile ..)
          refine ⟨isName_nameOf hw (by simpa using hne), ?_⟩
          rw [spelled_append, ofString_nameOf hw, ← hu, List.takeWhile_append_dropWhile]
        · cases h
      · cases h
    · cases h
  · cases h

theorem placeholder?_eq_some_iff {s rest : Bytes} {name : String} :
    placeholder? s = some (name, rest) ↔ IsName name ∧ s = spelled name ++ rest := by
  refine ⟨placeholder?_sound, ?_⟩
  rintro ⟨hname, rfl⟩
  exact placeholder?_spelled hname rest

theorem occurs_iff {s : Bytes} {i : Nat} {name : String} :
    Occurs s i name ↔ ∃ rest, placeholder? (s.drop i) = some (name, rest) := by
  simp only [placeholder?_eq_some_iff, Occurs, exists_and_left]
  refine and_congr_right fun _ => exists_congr fun rest => eq_comm

section

variable {s : Bytes} {i j : Nat} {name other : String}

theorem Occurs.unique (h : Occurs s i name) (h' : Occurs s i other) : name = other := by
  obtain ⟨rest, hrest⟩ := occurs_iff.1 h
  obtain ⟨rest', hrest'⟩ := occurs_iff.1 h'
  exact (Prod.mk.inj (Option.some.inj (hrest.symm.trans hrest'))).1

theorem length_spelled (name : String) :
    (spelled name).length = (Bytes.ofString name).length + 5 := by
  have := congrArg List.length (spelled_append name [])
  simpa using this

theorem getElem?_spelled_eq_dollar (h : IsName name) :
    (spelled name)[i]? = some (byte '$') ↔ i = 0 := by
  have hrest : ∀ b ∈ byte '{' :: byte '{' :: (Bytes.ofString name ++ [byte '}', byte '}']),
      b ≠ byte '$' := by
    simp only [List.mem_cons, List.mem_append, List.not_mem_nil, or_false]
    rintro b (rfl | rfl | hb | rfl | rfl)
    · decide
    · decide
    · exact (isNameByte_cases (h.isNameByte b hb)).2.1
    · decide
    · decide
  have hcons := spelled_append name []
  rw [List.append_nil] at hcons
  rw [hcons]
  cases i with
  | zero => simp
  | succ i =>
    rw [List.getElem?_cons_succ]
    exact iff_of_false (fun hi => hrest _ (List.mem_of_getElem? hi) rfl) (Nat.succ_ne_zero i)

theorem Occurs.getElem? (h : Occurs s i name) (hj : j < (spelled name).length) :
    s[i + j]? = (spelled name)[j]? := by
  rw [← List.getElem?_drop]
  exact (List.prefix_iff_getElem?.1 h.2 j hj).trans (List.getElem?_eq_getElem hj).symm

theorem Occurs.length_le (h : Occurs s i name) : i + (spelled name).length ≤ s.length := by
  have hle := h.2.length_le
  have hpos := length_spelled name
  rw [List.length_drop] at hle
  omega

theorem Occurs.disjoint (h : Occurs s i name) (h' : Occurs s j other) (hij : i < j) :
    i + (spelled name).length ≤ j := by
  refine Nat.not_lt.1 fun hlt => ?_
  have hj : j - i < (spelled name).length := by omega
  have hpos : 0 < (spelled other).length := by rw [length_spelled]; omega
  have hdollar := h'.getElem? hpos
  rw [(getElem?_spelled_eq_dollar h'.1).2 rfl, Nat.add_zero,
    ← Nat.add_sub_cancel' (Nat.le_of_lt hij), h.getElem? hj,
    getElem?_spelled_eq_dollar h.1] at hdollar
  omega

theorem occurs_append (x s : Bytes) (i : Nat) (name : String) :
    Occurs (x ++ s) (x.length + i) name ↔ Occurs s i name := by
  rw [Occurs, Occurs, List.drop_length_add_append]

theorem not_occurs_nil : ¬ Occurs [] i name := by
  intro h
  have hle := h.length_le
  rw [length_spelled, List.length_nil] at hle
  omega

theorem occurs_spelled_append (h : IsName name) {rest : Bytes} :
    Occurs (spelled name ++ rest) i other ↔
      i = 0 ∧ other = name ∨ ∃ j, i = (spelled name).length + j ∧ Occurs rest j other := by
  have hfirst : Occurs (spelled name ++ rest) 0 name := ⟨h, List.prefix_append ..⟩
  constructor
  · intro hoccurs
    rcases Nat.eq_zero_or_pos i with rfl | hpos
    · exact .inl ⟨rfl, hoccurs.unique hfirst⟩
    · have hle := hfirst.disjoint hoccurs hpos
      rw [Nat.zero_add] at hle
      obtain ⟨j, rfl⟩ := Nat.exists_eq_add_of_le hle
      exact .inr ⟨j, rfl, (occurs_append ..).1 hoccurs⟩
  · rintro (⟨rfl, rfl⟩ | ⟨j, rfl, hoccurs⟩)
    · exact hfirst
    · exact (occurs_append ..).2 hoccurs

theorem occurs_cons_of_none {b : UInt8} {t : Bytes} (h : placeholder? (b :: t) = none) :
    Occurs (b :: t) i name ↔ ∃ j, i = j + 1 ∧ Occurs t j name := by
  cases i with
  | zero => simp [occurs_iff, h]
  | succ i => simp [Occurs]

end

@[elab_as_elim]
theorem segments_induction {motive : Bytes → Prop} (s : Bytes) (nil : motive [])
    (placeholder : ∀ name rest, IsName name → motive rest → motive (spelled name ++ rest))
    (literal : ∀ b t, placeholder? (b :: t) = none → motive t → motive (b :: t)) : motive s := by
  -- by induction on the segments: a placeholder in front, or a byte that begins none
  induction hlen : s.length using Nat.strongRecOn generalizing s with
  | ind k ih =>
    cases h : placeholder? s with
    | some p =>
      obtain ⟨name, rest⟩ := p
      have hlt := placeholder?_length_lt h
      obtain ⟨hname, rfl⟩ := placeholder?_sound h
      exact placeholder name rest hname (ih _ (hlen ▸ hlt) rest rfl)
    | none =>
      cases s with
      | nil => exact nil
      | cons b t => exact literal b t h (ih _ (hlen ▸ Nat.lt_succ_self _) t rfl)

theorem segments_spelled_append {name : String} (h : IsName name) (rest : Bytes) :
    segments (spelled name ++ rest) = .placeholder name :: segments rest :=
  segments_of_placeholder (placeholder?_spelled h rest)

def placed (i : Nat) : List Segment → List (Nat × String)
  | [] => []
  | .literal _ :: rest => placed (i + 1) rest
  | .placeholder name :: rest => (i, name) :: placed (i + (spelled name).length) rest

theorem map_snd_placed (i : Nat) (l : List Segment) :
    (placed i l).map Prod.snd = l.filterMap Segment.name? := by
  induction l generalizing i with
  | nil => rfl
  | cons segment rest ih =>
    cases segment with
    | literal b => exact ih (i + 1)
    | placeholder name => exact congrArg (name :: ·) (ih (i + (spelled name).length))

theorem le_of_mem_placed {i : Nat} {l : List Segment} : ∀ p ∈ placed i l, i ≤ p.1 := by
  induction l generalizing i with
  | nil => simp [placed]
  | cons segment rest ih =>
    cases segment with
    | literal b => exact fun p hp => Nat.le_of_succ_le (ih p hp)
    | placeholder name =>
      refine List.forall_mem_cons.2 ⟨Nat.le_refl i, fun p hp => ?_⟩
      exact Nat.le_trans (Nat.le_add_right ..) (ih p hp)

theorem pairwise_placed (i : Nat) (l : List Segment) : (placed i l).Pairwise (·.1 < ·.1) := by
  induction l generalizing i with
  | nil => exact .nil
  | cons segment rest ih =>
    cases segment with
    | literal b => exact ih (i + 1)
    | placeholder name =>
      refine List.pairwise_cons.2 ⟨fun p hp => ?_, ih _⟩
      have hle := le_of_mem_placed p hp
      rw [length_spelled] at hle
      omega

/-- The placeholders among the segments of a text are all that occur in it. -/
theorem mem_placed {s : Bytes} {i k : Nat} {name : String} :
    (k, name) ∈ placed i (segments s) ↔ ∃ j, k = i + j ∧ Occurs s j name := by
  induction s using segments_induction generalizing i with
  | nil => simp [segments_nil, placed, not_occurs_nil]
  | placeholder first rest hfirst ih =>
    simp only [segments_spelled_append hfirst, placed, List.mem_cons, Prod.mk.injEq, ih,
      occurs_spelled_append hfirst]
    constructor
    · rintro (⟨rfl, rfl⟩ | ⟨j, rfl, hj⟩)
      · exact ⟨0, rfl, .inl ⟨rfl, rfl⟩⟩
      · exact ⟨_, Nat.add_assoc .., .inr ⟨j, rfl, hj⟩⟩
    · rintro ⟨_, rfl, ⟨rfl, rfl⟩ | ⟨j, rfl, hj⟩⟩
      · exact .inl ⟨rfl, rfl⟩
      · exact .inr ⟨j, (Nat.add_assoc ..).symm, hj⟩
  | literal b t h ih =>
    simp only [segments_of_literal h, placed, ih, occurs_cons_of_none h]
    constructor
    · rintro ⟨j, rfl, hj⟩
      exact ⟨j + 1, by omega, j, rfl, hj⟩
    · rintro ⟨_, rfl, j, rfl, hj⟩
      exact ⟨j, by omega, hj⟩

end DocMatch.Substitution
