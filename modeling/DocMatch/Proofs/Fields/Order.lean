import DocMatch.Proofs.Fields
import DocMatch.Proofs.Utf8

/-!
The order of keys. Keys ascend by their characters, and that is the order of their UTF-8 bytes, so
the fields up to a key are the first fields of an object. Main statements: `ofString_lt_ofString`
and `upTo_prefix`.
-/

namespace DocMatch

namespace Utf8

theorem ofNat_lt_ofNat {m n : Nat} (hm : m < 256) (hn : n < 256) :
    UInt8.ofNat m < UInt8.ofNat n ↔ m < n := by
  rw [UInt8.lt_iff_toNat_lt, UInt8.toNat_ofNat_of_lt' hm, UInt8.toNat_ofNat_of_lt' hn]

theorem ofNat_inj {m n : Nat} (hm : m < 256) (hn : n < 256) :
    UInt8.ofNat m = UInt8.ofNat n ↔ m = n := by
  rw [← UInt8.toNat_inj, UInt8.toNat_ofNat_of_lt' hm, UInt8.toNat_ofNat_of_lt' hn]

/-- The bytes of the smaller character are smaller, whatever follows: a longer form starts with a
greater byte, and forms of one length are compared digit by digit. -/
theorem encode_lt_encode {c d : Char} (h : c < d) (s t : Bytes) :
    String.utf8EncodeChar c ++ s < String.utf8EncodeChar d ++ t := by
  have hlt : c.val.toNat < d.val.toNat := h
  have hvalid : d.val.toNat < 1114112 := by
    have := d.valid
    simp only [UInt32.isValidChar, Nat.isValidChar] at this
    omega
  have hdiv (n : Nat) : n / 4096 = n / 64 / 64 ∧ n / 262144 = n / 64 / 64 / 64 := by omega
  simp only [String.utf8EncodeChar, hdiv]
  generalize c.val.toNat = v at *
  generalize d.val.toNat = w at *
  repeat' split
  all_goals
    simp (disch := omega) only [List.cons_append, List.cons_lt_cons_iff, ofNat_lt_ofNat, ofNat_inj]
    omega

theorem flatMap_encode_lt {l m : List Char} (h : l < m) :
    l.flatMap String.utf8EncodeChar < m.flatMap String.utf8EncodeChar := by
  induction l generalizing m with
  | nil =>
    cases m with
    | nil => exact absurd h (List.lt_irrefl _)
    | cons d m =>
      obtain ⟨a, u, hd, -⟩ := step_encode d []
      rw [List.flatMap_nil, List.flatMap_cons, hd]
      exact List.nil_lt_cons ..
  | cons c l ih =>
    cases m with
    | nil => exact absurd h (List.not_lt_nil _)
    | cons d m =>
      rw [List.flatMap_cons, List.flatMap_cons]
      rcases List.cons_lt_cons_iff.1 h with hlt | ⟨rfl, hlt⟩
      · exact encode_lt_encode hlt _ _
      · exact List.append_left_lt (ih hlt)

theorem ofString_lt_ofString {s t : String} : Bytes.ofString s < Bytes.ofString t ↔ s < t := by
  constructor
  · intro h
    by_contra hlt
    rcases Std.le_iff_lt_or_eq.1 (String.not_lt.1 hlt) with hgt | rfl
    · exact List.lt_asymm h (flatMap_encode_lt hgt)
    · exact List.lt_irrefl _ h
  · exact flatMap_encode_lt

end Utf8

/-- Where what comes earlier satisfies `p` with what comes later, the elements with `p` come first. -/
theorem filter_prefix {α : Type} {R : α → α → Prop} {p : α → Bool} {l : List α}
    (hl : l.Pairwise R) (hp : ∀ a b, R a b → p b = true → p a = true) : l.filter p <+: l := by
  induction l with
  | nil => exact List.prefix_rfl
  | cons a l ih =>
    obtain ⟨ha, hrest⟩ := List.pairwise_cons.1 hl
    by_cases hpa : p a = true
    · rw [List.filter_cons_of_pos hpa]
      exact List.cons_prefix_cons.2 ⟨rfl, ih hrest⟩
    · have hnone : l.filter p = [] :=
        List.filter_eq_nil_iff.2 fun b hb hpb => hpa (hp a b (ha b hb) hpb)
      rw [List.filter_cons_of_neg hpa, hnone]
      exact List.nil_prefix

theorem exists_last {α : Type} {R : α → α → Prop} {l : List α} (hl : l.Pairwise R) (hne : l ≠ []) :
    ∃ last, ∀ a ∈ l, a = last ∨ R a last := by
  obtain ⟨front, last, rfl⟩ := (List.eq_nil_or_concat l).resolve_left hne
  rw [List.concat_eq_append] at hl ⊢
  refine ⟨last, List.forall_mem_append.2 ⟨fun a ha => ?_, by simp⟩⟩
  exact .inr ((List.pairwise_append.1 hl).2.2 a ha last (List.mem_singleton_self last))

namespace Fields

def upTo (fields : Fields) (key : String) : Fields where
  toList := fields.toList.filter fun f => Bytes.ofString f.1 ≤ Bytes.ofString key
  sorted := fields.sorted.filter _

theorem upTo_prefix (fields : Fields) (key : String) :
    (fields.upTo key).toList <+: fields.toList := by
  refine filter_prefix fields.sorted fun f g hlt hg => ?_
  have hbytes : Bytes.ofString f.1 < Bytes.ofString g.1 := Utf8.ofString_lt_ofString.2 hlt
  exact decide_eq_true (List.le_of_lt (Std.lt_of_lt_of_le hbytes (of_decide_eq_true hg)))

theorem exists_last_key (fields : Fields) :
    ∃ key, ∀ f ∈ fields.toList, Bytes.ofString f.1 ≤ Bytes.ofString key := by
  by_cases hnil : fields.toList = []
  · exact ⟨"", by simp [hnil]⟩
  · obtain ⟨last, hlast⟩ := exists_last fields.sorted hnil
    refine ⟨last.1, fun f hf => ?_⟩
    rcases hlast f hf with rfl | hlt
    · exact List.le_refl _
    · exact List.le_of_lt (Utf8.ofString_lt_ofString.2 hlt)

theorem exists_upTo_eq (fields : Fields) : ∃ key, fields.upTo key = fields := by
  obtain ⟨key, hkey⟩ := exists_last_key fields
  refine ⟨key, ext fun k => ?_⟩
  have hall : (fields.upTo key).toList = fields.toList :=
    List.filter_eq_self.2 fun f hf => decide_eq_true (hkey f hf)
  rw [get?, hall, get?]

end Fields

end DocMatch
