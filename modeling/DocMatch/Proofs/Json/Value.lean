import DocMatch.Json.Skip
import DocMatch.Node
import DocMatch.Proofs.Json.Layout
import DocMatch.Proofs.Json.Number

/-!
Values against their grammar. A node is written if its bytes are a value of its kind, without
anything around it, where `Lit` says which bytes may stand between quotation marks and what they
are taken for. Main statement: `Node.Written.transfer`, by which literals that satisfy a condition
on bytes are told by the bytes of the whole value.
-/

namespace DocMatch

namespace Json

def quote (b : Bytes) : Bytes := byte '"' :: (b ++ [byte '"'])

theorem quote_append (b t : Bytes) : quote b ++ t = byte '"' :: (b ++ byte '"' :: t) := by
  simp [quote]

def Element (x : Bytes) (n : Node) : Prop := x = n.raw

/-- A member of an object, a literal and a value with a colon between them. -/
inductive Member {κ : Type} (Lit : Bytes → κ → Prop) : Bytes → κ × Node → Prop where
  | mk {b v w : Bytes} {k : κ} {n : Node} : Lit b k → AllBlank v → AllBlank w →
      Member Lit (quote b ++ (v ++ byte ':' :: (w ++ n.raw))) (k, n)

theorem Member.opens {κ : Type} {Lit : Bytes → κ → Prop} {x : Bytes} {m : κ × Node}
    (h : Member Lit x m) : Opens x := by
  cases h with
  | mk _ _ _ => exact ⟨byte '"', _, quote_append _ _, by decide, by decide, by decide⟩

end Json

open Json

/-- The bytes of the node are a value of its kind. -/
inductive Node.Written {κ : Type} (Lit : Bytes → κ → Prop) : Node → Prop where
  | null : Written Lit ⟨.null, Bytes.ofString "null"⟩
  | boolean {x : Bytes} :
      x = Bytes.ofString "true" ∨ x = Bytes.ofString "false" → Written Lit ⟨.boolean, x⟩
  | number {x : Bytes} : IsNumber x → Written Lit ⟨.number, x⟩
  | string {b : Bytes} {k : κ} : Lit b k → Written Lit ⟨.string, quote b⟩
  | array {y : Bytes} {nodes : List Node} :
      Enclosed (byte '[') (byte ']') Element y nodes → (∀ n ∈ nodes, Written Lit n) →
      Written Lit ⟨.array, y⟩
  | object {y : Bytes} {members : List (κ × Node)} :
      Enclosed (byte '{') (byte '}') (Member Lit) y members → (∀ m ∈ members, Written Lit m.2) →
      Written Lit ⟨.object, y⟩

namespace Json

def Loose (b : Bytes) (_ : Unit) : Prop := IsBody b

theorem isDigit_cases {b : UInt8} (h : Bytes.isDigit b = true) :
    Bytes.isSpace b = false ∧ IsPlain b ∧ b ≠ byte ']' ∧ b ≠ byte '}' := by
  have all : ∀ n : Fin 10, Bytes.isSpace (UInt8.ofNat (n + 48)) = false ∧
      IsPlain (UInt8.ofNat (n + 48)) ∧ UInt8.ofNat (n + 48) ≠ byte ']' ∧
      UInt8.ofNat (n + 48) ≠ byte '}' := by decide
  simp only [Bytes.isDigit, Bool.and_eq_true, decide_eq_true_eq] at h
  have h0 : 48 ≤ b.toNat := h.1
  have h9 : b.toNat ≤ 57 := h.2
  have := all ⟨b.toNat - 48, by omega⟩
  rwa [Nat.sub_add_cancel h0, UInt8.ofNat_toNat] at this

theorem ofFirstByte?_some {b : UInt8} {k : Kind} (h : Kind.ofFirstByte? b = some k) :
    Bytes.isSpace b = false ∧ IsPlain b ∧ b ≠ byte ']' ∧ b ≠ byte '}' := by
  unfold Kind.ofFirstByte? at h
  repeat' split at h
  next hb => subst hb; decide
  next hb => subst hb; decide
  next hb => subst hb; decide
  next hb => rcases hb with rfl | rfl <;> exact ⟨by decide, by decide, by decide, by decide⟩
  next hb => subst hb; decide
  next hb =>
    rcases hb with rfl | hb
    · exact ⟨by decide, by decide, by decide, by decide⟩
    · exact isDigit_cases hb
  next => simp at h

theorem isBlank_of_isSpace {b : UInt8} (h : Bytes.isSpace b = false) : Bytes.isBlank b = false := by
  simp only [Bytes.isSpace, Bool.or_eq_false_iff] at h
  exact h.1

theorem ofFirstByte?_of_isDigit {b : UInt8} (h : Bytes.isDigit b = true) :
    Kind.ofFirstByte? b = some .number := by
  have hne {c : UInt8} (hc : Bytes.isDigit c = false) : b ≠ c := by
    rintro rfl
    simp [hc] at h
  have ht : ¬ (b = byte 't' ∨ b = byte 'f') := not_or.2 ⟨hne (by decide), hne (by decide)⟩
  rw [Kind.ofFirstByte?, if_neg (hne (by decide)), if_neg (hne (by decide)),
    if_neg (hne (by decide)), if_neg ht, if_neg (hne (by decide)), if_pos (.inr h)]

theorem IsNumber.exists_cons {x : Bytes} (hx : IsNumber x) :
    ∃ b t, x = b :: t ∧ (b = byte '-' ∨ Bytes.isDigit b = true) := by
  cases hx with
  | unsigned hx =>
    obtain ⟨b, t, rfl, hb⟩ := hx.exists_cons
    exact ⟨b, t, rfl, .inr hb⟩
  | negative _ => exact ⟨_, _, rfl, .inl rfl⟩

end Json

variable {κ κ' : Type} {Lit : Bytes → κ → Prop} {Lit' : Bytes → κ' → Prop}

theorem Node.Written.exists_cons {n : Node} (h : n.Written Lit) :
    ∃ b t, n.raw = b :: t ∧ Kind.ofFirstByte? b = some n.kind := by
  cases h with
  | null => exact ⟨_, _, rfl, rfl⟩
  | boolean hx => rcases hx with rfl | rfl <;> exact ⟨_, _, rfl, rfl⟩
  | number hx =>
    obtain ⟨b, t, rfl, hb⟩ := hx.exists_cons
    refine ⟨b, t, rfl, ?_⟩
    rcases hb with rfl | hb
    · rfl
    · exact ofFirstByte?_of_isDigit hb
  | string _ => exact ⟨_, _, rfl, rfl⟩
  | array h _ => cases h <;> exact ⟨_, _, rfl, rfl⟩
  | object h _ => cases h <;> exact ⟨_, _, rfl, rfl⟩

theorem Node.Written.opens {n : Node} (h : n.Written Lit) : Opens n.raw := by
  obtain ⟨b, t, hraw, hb⟩ := h.exists_cons
  obtain ⟨hspace, -, hclose⟩ := ofFirstByte?_some hb
  exact ⟨b, t, hraw, isBlank_of_isSpace hspace, hclose⟩

theorem Node.Written.ofRaw? {n : Node} (h : n.Written Lit) : Node.ofRaw? n.raw = some n := by
  obtain ⟨b, t, hraw, hb⟩ := h.exists_cons
  obtain ⟨kind, raw⟩ := n
  obtain rfl : raw = b :: t := hraw
  simp [Node.ofRaw?, (ofFirstByte?_some hb).1, hb]

theorem Json.forall_of_isNumber {P : UInt8 → Prop} (hdigit : ∀ b, Bytes.isDigit b = true → P b)
    (hmark : ∀ b ∈ [byte '-', byte '+', byte '.', byte 'e', byte 'E'], P b) {x : Bytes}
    (hx : IsNumber x) : ∀ b ∈ x, P b := by
  have hdigits {d : Bytes} (hd : IsDigits d) : ∀ b ∈ d, P b := fun b hb => hdigit b (hd.2 b hb)
  have hunsigned {y : Bytes} (hy : IsUnsigned y) : ∀ b ∈ y, P b := by
    cases hy with
    | @parts w f e hw hf he =>
      simp only [List.mem_append, or_imp, forall_and]
      refine ⟨?_, ?_, ?_⟩
      · cases hw with
        | zero => exact List.forall_mem_singleton.2 (hdigit _ (by decide))
        | digits _ hd => exact hdigits hd
      · cases hf with
        | none => simp
        | point hd => exact List.forall_mem_cons.2 ⟨hmark _ (by decide), hdigits hd⟩
      · cases he with
        | none => simp
        | letter he hsign hd =>
          refine List.forall_mem_cons.2 ⟨?_, List.forall_mem_append.2 ⟨?_, hdigits hd⟩⟩
          · rcases he with rfl | rfl <;> exact hmark _ (by decide)
          · cases hsign with
            | none => simp
            | minus => exact List.forall_mem_singleton.2 (hmark _ (by decide))
            | plus => exact List.forall_mem_singleton.2 (hmark _ (by decide))
  cases hx with
  | unsigned hx => exact hunsigned hx
  | negative hx => exact List.forall_mem_cons.2 ⟨hmark _ (by decide), hunsigned hx⟩

theorem Json.isPlain_of_isNumber {x : Bytes} (hx : IsNumber x) : ∀ b ∈ x, IsPlain b :=
  forall_of_isNumber (fun _ hb => (isDigit_cases hb).2.1) (by decide +kernel) hx

namespace Node.Written

variable {Good Whole : Bytes → Prop} (hs : Splits Good Whole)

include hs

theorem whole_quote {b : Bytes} (hb : Whole b) : Whole (quote b) :=
  hs.whole_cons (by decide) (hs.whole_append hb (hs.whole_cons (by decide) hs.nil.1))

theorem good_quote {b : Bytes} (hb : Whole b) : Good (quote b) ↔ Good b :=
  hs.good_between (by decide) (by decide) hb

theorem whole_member {b v w : Bytes} {n : Node} (hb : Whole b) (hv : AllBlank v) (hw : AllBlank w)
    (hn : Whole n.raw) : Whole (quote b ++ (v ++ byte ':' :: (w ++ n.raw))) :=
  hs.whole_append (whole_quote hs hb) (hs.whole_append (hs.blanks hv).1
    (hs.whole_cons (by decide) (hs.whole_append (hs.blanks hw).1 hn)))

theorem good_member {b v w : Bytes} {n : Node} (hb : Whole b) (hv : AllBlank v) (hw : AllBlank w) :
    Good (quote b ++ (v ++ byte ':' :: (w ++ n.raw))) ↔ Good b ∧ Good n.raw := by
  have hstart : StartsPlain (v ++ byte ':' :: (w ++ n.raw)) :=
    startsPlain_append (startsPlain_of_forall hv.isPlain) (startsPlain_cons (by decide) _)
  rw [hs.good_append (whole_quote hs hb) hstart, good_quote hs hb,
    hs.good_plain_append hv.isPlain, hs.good_cons (by decide), hs.good_plain_append hw.isPlain]

theorem whole (hlit : ∀ b k, Lit b k → Whole b) {n : Node} (h : n.Written Lit) : Whole n.raw := by
  induction h with
  | null => exact (hs.plain (by decide +kernel)).1
  | boolean hx => rcases hx with rfl | rfl <;> exact (hs.plain (by decide +kernel)).1
  | number hx => exact (hs.plain (isPlain_of_isNumber hx)).1
  | string hb => exact whole_quote hs (hlit _ _ hb)
  | array h _ ih =>
    exact hs.whole_enclosed (by decide) (by decide) h fun x n hn hx => hx ▸ ih n hn
  | object h _ ih =>
    refine hs.whole_enclosed (by decide) (by decide) h fun x m hm hx => ?_
    cases hx with
    | mk hb hv hw => exact whole_member hs (hlit _ _ hb) hv hw (ih _ hm)

theorem good (hlit : ∀ b k, Lit b k → Whole b ∧ Good b) {n : Node} (h : n.Written Lit) :
    Good n.raw := by
  have hwhole {m : Node} (hm : m.Written Lit) : Whole m.raw :=
    whole hs (fun b k hb => (hlit b k hb).1) hm
  induction h with
  | null => exact (hs.plain (by decide +kernel)).2
  | boolean hx => rcases hx with rfl | rfl <;> exact (hs.plain (by decide +kernel)).2
  | number hx => exact (hs.plain (isPlain_of_isNumber hx)).2
  | string hb =>
    obtain ⟨hw, hg⟩ := hlit _ _ hb
    exact (good_quote hs hw).2 hg
  | array h hn ih =>
    exact hs.good_enclosed (by decide) (by decide) h fun x n hmem hx =>
      hx ▸ ⟨hwhole (hn n hmem), ih n hmem⟩
  | object h hn ih =>
    refine hs.good_enclosed (by decide) (by decide) h fun x m hmem hx => ⟨?_, ?_⟩
    · cases hx with
      | mk hb hv hw => exact whole_member hs (hlit _ _ hb).1 hv hw (hwhole (hn _ hmem))
    · cases hx with
      | mk hb hv hw =>
        obtain ⟨hwb, hgb⟩ := hlit _ _ hb
        exact (good_member hs hwb hv hw).2 ⟨hgb, ih _ hmem⟩

/-- What holds of a node holds of every literal in it, which may decide what the literals are. -/
theorem transfer (hwhole : ∀ b k, Lit b k → Whole b)
    (hlit : ∀ b k, Lit b k → Good b → ∃ k', Lit' b k') {n : Node} (h : n.Written Lit)
    (hgood : Good n.raw) : n.Written Lit' := by
  induction h with
  | null => exact .null
  | boolean hx => exact .boolean hx
  | number hx => exact .number hx
  | string hb =>
    obtain ⟨k', hb'⟩ := hlit _ _ hb ((good_quote hs (hwhole _ _ hb)).1 hgood)
    exact .string hb'
  | @array y nodes h hn ih =>
    have hgoods : Enclosed (byte '[') (byte ']') (fun x n => Element x n ∧ Good x) y nodes :=
      hs.enclosed (by decide) (by decide) h (fun x n hmem hx => hx ▸ whole hs hwhole (hn n hmem))
        hgood
    refine .array h fun n hmem => ih n hmem ?_
    obtain ⟨x, hx, hg⟩ := hgoods.exists_item n hmem
    exact hx ▸ hg
  | @object y members h hn ih =>
    have hgoods :
        Enclosed (byte '{') (byte '}') (fun x m => Member Lit x m ∧ Good x) y members := by
      refine hs.enclosed (by decide) (by decide) h (fun x m hmem hx => ?_) hgood
      cases hx with
      | mk hb hv hw => exact whole_member hs (hwhole _ _ hb) hv hw (whole hs hwhole (hn _ hmem))
    have hmembers : ∃ members', Enclosed (byte '{') (byte '}') (Member Lit') y members' ∧
        List.Forall₂ (fun _ m' => m'.2.Written Lit') members members' := by
      refine hgoods.exists_forall₂ ?_
      rintro x m hmem ⟨hx, hg⟩
      cases hx with
      | @mk b v w k n hb hv hw =>
        obtain ⟨hgb, hgn⟩ := (good_member hs (hwhole _ _ hb) hv hw).1 hg
        obtain ⟨k', hb'⟩ := hlit _ _ hb hgb
        exact ⟨(k', n), .mk hb' hv hw, ih _ hmem hgn⟩
    obtain ⟨members', h', hforall⟩ := hmembers
    exact .object h' (forall_mem_of_forall₂ hforall)

end Node.Written

theorem Node.Written.imp (hlit : ∀ b k, Lit b k → ∃ k', Lit' b k') {n : Node}
    (h : n.Written Lit) : n.Written Lit' := by
  have hs : Splits (fun _ => True) (fun _ => True) :=
    ⟨⟨trivial, trivial⟩, fun _ _ => trivial, fun _ => Iff.rfl, fun _ _ => trivial,
      fun _ _ => by simp⟩
  exact h.transfer hs (fun _ _ _ => trivial) (fun b k hb _ => hlit b k hb) trivial

end DocMatch
