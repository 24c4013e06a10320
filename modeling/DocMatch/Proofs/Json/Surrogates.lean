import DocMatch.Proofs.Json.Value

/-!
Surrogate escapes. Whether every `\u` escape of a surrogate belongs to a pair is told by the bytes
of a document alone, string by string or not. Main statement: `Node.Written.spelled`, where that is
so, every literal in a written node denotes text.
-/

namespace DocMatch

namespace Json

/-- The `\u` escapes in the bytes, and `none` for each byte or other escape between them. -/
def units : Bytes → List (Option Nat)
  | [] => []
  | b :: t =>
    if b = byte '\\' then
      match t with
      | [] => [none]
      | e :: t =>
        if e = byte 'u' then
          match t with
          | a :: b :: c :: d :: t => hexUnit? a b c d :: units t
          | _ => [none]
        else none :: units t
    else none :: units t

/-- Whether each high surrogate is followed by a low one at once, and no other low one occurs. -/
def paired : List (Option Nat) → Bool
  | [] => true
  | none :: us => paired us
  | some n :: us =>
    if isLowSurrogate n then false
    else if isHighSurrogate n then
      match us with
      | some m :: us => isLowSurrogate m && paired us
      | _ => false
    else paired us

def IsPaired (s : Bytes) : Prop := paired (units s) = true

instance (s : Bytes) : Decidable (IsPaired s) := inferInstanceAs (Decidable (_ = _))

example : IsPaired (Bytes.ofString "\\ud83d\\ude00") ∧
    ¬ IsPaired (Bytes.ofString "\\ude00\\ud83d") := by
  decide +kernel

theorem units_cons_of_ne {b : UInt8} (hb : b ≠ byte '\\') (t : Bytes) :
    units (b :: t) = none :: units t := by
  rw [units.eq_def]
  exact if_neg hb

theorem units_cons_of_escape {e : UInt8} (he : e ≠ byte 'u') (t : Bytes) :
    units (byte '\\' :: e :: t) = none :: units t := by
  rw [units.eq_def]
  exact (if_pos rfl).trans (if_neg he)

/-- Nothing begun in `s` goes on in what follows. -/
def Closed (s : Bytes) : Prop := ∀ t, units (s ++ t) = units s ++ units t

theorem closed_nil : Closed [] := fun _ => rfl

theorem Closed.cons {b : UInt8} (hb : b ≠ byte '\\') {s : Bytes} (hs : Closed s) :
    Closed (b :: s) := by
  intro t
  rw [List.cons_append, units_cons_of_ne hb, units_cons_of_ne hb, hs t, List.cons_append]

theorem Closed.append {s t : Bytes} (hs : Closed s) (ht : Closed t) : Closed (s ++ t) := by
  intro u
  rw [List.append_assoc, hs, ht, hs, List.append_assoc]

theorem units_of_startsPlain {t : Bytes} (ht : StartsPlain t) :
    units t = [] ∨ ∃ us, units t = none :: us := by
  cases t with
  | nil => exact .inl rfl
  | cons b t => exact .inr ⟨_, units_cons_of_ne (ht b rfl).2 t⟩

theorem paired_low {n : Nat} (hn : isLowSurrogate n = true) (us : List (Option Nat)) :
    paired (some n :: us) = false := by
  rw [paired.eq_def]
  exact if_pos hn

theorem paired_single {n : Nat} (hl : isLowSurrogate n = false) (hh : isHighSurrogate n = false)
    (us : List (Option Nat)) : paired (some n :: us) = paired us := by
  rw [paired.eq_def]
  simp only [hl, hh]
  rfl

theorem paired_high {n : Nat} (hn : isHighSurrogate n = true) {us : List (Option Nat)}
    (hp : paired (some n :: us) = true) :
    ∃ m ws, us = some m :: ws ∧ isLowSurrogate m = true ∧ paired ws = true := by
  have hl := not_isLowSurrogate hn
  rcases us with _ | ⟨_ | m, ws⟩
  · simp [paired, hl, hn] at hp
  · simp [paired, hl, hn] at hp
  · exact ⟨m, ws, rfl, by simpa [paired, hl, hn] using hp⟩

theorem paired_append {us vs : List (Option Nat)} (hvs : vs = [] ∨ ∃ ws, vs = none :: ws) :
    paired (us ++ vs) = (paired us && paired vs) := by
  fun_induction paired us with
  | case1 => simp
  | case2 us ih => simpa [paired] using ih
  | case3 n us hn => rw [List.cons_append, paired_low hn, Bool.false_and]
  | case4 n hn hh m us ih => simp [paired, hn, hh, ih, Bool.and_assoc]
  | case5 n us hn hh hne =>
    rcases us with _ | ⟨_ | m, us⟩
    · rcases hvs with rfl | ⟨ws, rfl⟩ <;> simp [paired, hn, hh]
    · simp [paired, hn, hh]
    · exact absurd rfl (hne m us)
  | case6 n us hn hh ih =>
    rw [List.cons_append, paired_single (by simpa using hn) (by simpa using hh), ih]

theorem splits_isPaired : Splits IsPaired Closed where
  nil := ⟨closed_nil, rfl⟩
  whole_cons hb ht := ht.cons hb.2
  good_cons {b t} hb := by rw [IsPaired, units_cons_of_ne hb.2, paired, IsPaired]
  whole_append := Closed.append
  good_append {s t} hs ht := by
    rw [IsPaired, hs, paired_append (units_of_startsPlain ht), Bool.and_eq_true]
    rfl

theorem splits_isValid : Splits (fun s => Utf8.isValid s = true) fun _ => True where
  nil := ⟨trivial, Utf8.isValid_nil⟩
  whole_cons _ _ := trivial
  good_cons {b t} hb := by rw [Utf8.isValid_cons_of_lt hb.1]
  whole_append _ _ := trivial
  good_append {s t} _ ht := by
    have hfresh : Utf8.startsFresh t = true := by
      cases t with
      | nil => rfl
      | cons b t => exact Utf8.startsFresh_of_lt (ht b rfl).1 t
    rw [Utf8.isValid_append _ hfresh, Bool.and_eq_true]

def Piece.unit? : Piece → Option Nat
  | .unit n => some n
  | _ => none

theorem IsPiece.units_append {p : Piece} {x : Bytes} (hp : IsPiece p x) (t : Bytes) :
    units (x ++ t) = p.unit? :: units t := by
  cases hp with
  | plain _ hs _ => exact units_cons_of_ne hs t
  | @short e b he =>
    have hu : e ≠ byte 'u' := by
      rintro rfl
      simp [escaped?_u] at he
    exact units_cons_of_escape hu t
  | unit hn => simp [units, hn, Piece.unit?]

theorem Body.units_append {ps : List Piece} {b : Bytes} (hb : Body ps b) (t : Bytes) :
    units (b ++ t) = ps.map Piece.unit? ++ units t := by
  induction hb with
  | nil => rfl
  | cons hp _ ih => rw [List.append_assoc, hp.units_append, ih, List.map_cons, List.cons_append]

theorem Body.units {ps : List Piece} {b : Bytes} (hb : Body ps b) :
    units b = ps.map Piece.unit? := by
  have := hb.units_append []
  rwa [List.append_nil, Json.units, List.append_nil] at this

theorem IsBody.closed {b : Bytes} (hb : IsBody b) : Closed b := by
  obtain ⟨ps, hps⟩ := hb
  intro t
  rw [hps.units_append, hps.units]

theorem Body.exists_denotes {ps : List Piece} {b : Bytes} (hb : Body ps b)
    (hp : paired (ps.map Piece.unit?) = true) : ∃ out, Denotes ps out := by
  induction hlen : ps.length using Nat.strongRecOn generalizing ps b with
  | ind k ih =>
    cases hb with
    | nil => exact ⟨[], .nil⟩
    | @cons p ps x y hx hy =>
      have hlt : ps.length < k := hlen ▸ Nat.lt_succ_self _
      cases hx with
      | @plain c =>
        obtain ⟨out, hd⟩ := ih _ hlt hy hp rfl
        exact ⟨c :: out, .plain c hd⟩
      | @short e c =>
        obtain ⟨out, hd⟩ := ih _ hlt hy hp rfl
        exact ⟨c :: out, .plain c hd⟩
      | @unit _ _ _ _ n =>
        cases hl : isLowSurrogate n with
        | true => exact absurd hp (by simp [Piece.unit?, paired_low hl])
        | false =>
          cases hh : isHighSurrogate n with
          | false =>
            have hrest : paired (ps.map Piece.unit?) = true := (paired_single hl hh _).symm.trans hp
            obtain ⟨out, hd⟩ := ih _ hlt hy hrest rfl
            exact ⟨_, .unit hl hh hd⟩
          | true =>
            obtain ⟨m, ws, hus, hm, hws⟩ := paired_high hh hp
            cases hy with
            | nil => simp at hus
            | @cons p' ps' x' y' hx' hy' =>
              obtain ⟨hu, rfl⟩ : p'.unit? = some m ∧ ps'.map Piece.unit? = ws := by simpa using hus
              cases hx' with
              | plain => simp [Piece.unit?] at hu
              | short => simp [Piece.unit?] at hu
              | unit =>
                obtain rfl : _ = m := Option.some.inj hu
                obtain ⟨out, hd⟩ := ih _ (Nat.lt_trans (Nat.lt_succ_self _) hlt) hy' hws rfl
                exact ⟨_, .pair hh hm hd⟩

def Encoded (b : Bytes) (_ : Unit) : Prop := IsBody b ∧ Utf8.isValid b = true

theorem exists_spells_of_isPaired {b : Bytes} (hb : IsBody b) (hv : Utf8.isValid b = true)
    (hp : IsPaired b) : ∃ text, Spells b text := by
  obtain ⟨ps, hps⟩ := hb
  rw [IsPaired, hps.units] at hp
  obtain ⟨out, hd⟩ := hps.exists_denotes hp
  exact exists_spells hv hps hd

end Json

open Json

namespace Node

/-- A value in UTF-8. -/
abbrev IsValue (n : Node) : Prop := n.Written Encoded

/-- A value all of whose literals denote text. -/
abbrev IsSpelled (n : Node) : Prop := n.Written Spells

theorem Written.isValue {n : Node} (h : n.IsSpelled) : n.IsValue :=
  h.imp fun _ _ hb => ⟨(), hb.isBody, hb.1⟩

theorem Written.loose {n : Node} (h : n.IsValue) : n.Written Loose :=
  h.imp fun _ _ hb => ⟨(), hb.1⟩

theorem Written.isValid {n : Node} (h : n.IsValue) : Utf8.isValid n.raw = true :=
  h.good splits_isValid fun _ _ hb => ⟨trivial, hb.2⟩

theorem Written.encoded {n : Node} (h : n.Written Loose) (hv : Utf8.isValid n.raw = true) :
    n.IsValue :=
  h.transfer splits_isValid (fun _ _ _ => trivial) (fun _ k hb hb' => ⟨k, hb, hb'⟩) hv

theorem Written.closed {n : Node} (h : n.IsValue) : Closed n.raw :=
  h.whole splits_isPaired fun _ _ hb => hb.1.closed

theorem Written.spelled {n : Node} (h : n.IsValue) (hp : IsPaired n.raw) : n.IsSpelled :=
  h.transfer splits_isPaired (fun _ _ hb => hb.1.closed)
    (fun _ _ hb hp => exists_spells_of_isPaired hb.1 hb.2 hp) hp

end Node

end DocMatch
