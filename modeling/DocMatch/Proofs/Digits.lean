import Mathlib.Data.List.Induction
import Mathlib.Tactic.Ring
import DocMatch.Bytes

/-!
Runs of decimal digits as numbers: what comes of writing one after another, and how large a run of
some length can be. Main statements: `toNat_append` and `toNat_lt`.
-/

namespace DocMatch.Bytes

theorem toNat_concat (x : Bytes) (b : UInt8) : toNat (x ++ [b]) = toNat x * 10 + digitValue b := by
  rw [toNat, List.foldl_append]
  rfl

theorem toNat_append (x y : Bytes) : toNat (x ++ y) = toNat x * 10 ^ y.length + toNat y := by
  induction y using List.reverseRecOn with
  | nil => simp [toNat_nil]
  | append_singleton y b ih =>
    rw [← List.append_assoc, toNat_concat, ih, toNat_concat, List.length_append,
      List.length_singleton, Nat.pow_succ]
    ring

theorem digitValue_lt {b : UInt8} (h : isDigit b = true) : digitValue b < 10 := by
  simp only [isDigit, Bool.and_eq_true, decide_eq_true_eq, UInt8.le_iff_toNat_le] at h
  have hnine : (byte '9').toNat = 57 := by decide
  have hzero : (byte '0').toNat = 48 := by decide
  rw [digitValue]
  omega

theorem toNat_lt {x : Bytes} (h : ∀ b ∈ x, isDigit b = true) : toNat x < 10 ^ x.length := by
  induction x using List.reverseRecOn with
  | nil => decide
  | append_singleton x b ih =>
    obtain ⟨hx, hb⟩ := List.forall_mem_append.1 h
    have hdigit := digitValue_lt (hb b (List.mem_singleton_self b))
    have hlt := ih hx
    rw [toNat_concat, List.length_append, List.length_singleton, Nat.pow_succ]
    omega

theorem toNat_take {x : Bytes} (h : ∀ b ∈ x, isDigit b = true) (n : Nat) :
    toNat (x.take n) = toNat x / 10 ^ (x.length - n) := by
  have hrest : toNat (x.drop n) < 10 ^ (x.length - n) := by
    rw [← List.length_drop]
    exact toNat_lt fun b hb => h b (List.mem_of_mem_drop hb)
  have hsplit : toNat x = toNat (x.drop n) + 10 ^ (x.length - n) * toNat (x.take n) := by
    conv_lhs => rw [← List.take_append_drop n x, toNat_append, List.length_drop]
    ring
  rw [hsplit, Nat.add_mul_div_left _ _ (Nat.pow_pos (by decide)), Nat.div_eq_of_lt hrest,
    Nat.zero_add]

end DocMatch.Bytes
