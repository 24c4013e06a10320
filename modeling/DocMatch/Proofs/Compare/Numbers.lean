import DocMatch.Proofs.Binary64.Within
import DocMatch.Proofs.Compare.Level
import DocMatch.Proofs.Document.Numbers

/-!
Number literals compared, against the rational numbers that they denote. What lies within the
tolerance matches, its bounds included, and what lies beyond it does not. The second has two limits.
Literals are read as numbers of 53 binary digits and the tolerance is widened to make up for that,
so a difference has to exceed it by a few of the last of these digits; and the widened tolerance has
to be finite. The first has one: two literals that are both too large to be read as finite numbers
differ in nothing but their signs, and if these agree they are never within any tolerance. Main
statements: `numbers_within` and `numbers_beyond`.
-/

namespace DocMatch

namespace Compare

open Binary64 Json

def reach (config : Config) (expected actual : Node) : Except MatchError Binary64 := do
  let x ← actual.numberValue
  let target ← expected.numberValue
  pure (NumberTest.reach x target config.tolerance)

theorem exists_nodes_number {e a : Bytes} {p q : ℚ} (he : IsNumberOf e p) (ha : IsNumberOf a q)
    (config : Config) (path : String) :
    ∃ x target, Rounded q x ∧ Rounded p target ∧
      reach config ⟨.number, e⟩ ⟨.number, a⟩ =
        .ok (NumberTest.reach x target config.tolerance) ∧
      (nodes config path ⟨.number, e⟩ ⟨.number, a⟩).value =
        .ofTest (byValue path ⟨.number, e⟩ ⟨.number, a⟩)
          (.ok (NumberTest.within x target config.tolerance)) := by
  obtain ⟨x, hx, hrounded⟩ := Node.numberValue_rounded ha
  obtain ⟨target, htarget, hrounded'⟩ := Node.numberValue_rounded he
  refine ⟨x, target, hrounded, hrounded', ?_, ?_⟩
  · simp only [reach, hx, htarget, bind, Except.bind, pure, Except.pure]
  · rw [value_nodes]
    exact number_of_numberValue rfl hx htarget

section

variable {config : Config} (hvalid : config.isValid = true) {e a : Bytes} {p q : ℚ}
  (he : IsNumberOf e p) (ha : IsNumberOf a q)

include hvalid he ha

/-- Literals within the tolerance match, whatever their number of digits and their exponents, unless
both are too large to be read as finite numbers and have one sign. -/
theorem numbers_within (path : String) (h : |q - p| ≤ config.tolerance.toRat) :
    (nodes config path ⟨.number, e⟩ ⟨.number, a⟩).value =
      if overflow ≤ |p| ∧ overflow ≤ |q| ∧ (p < 0 ↔ q < 0)
      then .mismatch (byValue path ⟨.number, e⟩ ⟨.number, a⟩) else .matched := by
  obtain ⟨x, target, hx, htarget, -, hvalue⟩ := exists_nodes_number he ha config path
  have hiff := NumberTest.within_iff_of_abs_sub_le hx htarget (Config.isFinite_tolerance hvalid)
    (Config.zero_le_tolerance hvalid) h
  rw [hvalue]
  split
  next hover => rw [Bool.eq_false_iff.2 fun hwithin => hiff.1 hwithin hover]; rfl
  next hover => rw [hiff.2 hover]; rfl

end

theorem isWhole_ten : IsWhole (Bytes.ofString "10") :=
  isWhole_of_isDigits (by decide +kernel) (by decide +kernel)

theorem isNumberOf_ten : IsNumberOf (Bytes.ofString "10") 10 :=
  isNumberOf_parts isWhole_ten .none .none (by decide +kernel) (by decide +kernel)

theorem numbers_within_bound :
    Config.default.isValid = true ∧ IsNumberOf (Bytes.ofString "10") 10 ∧
      IsNumberOf (Bytes.ofString "10.05") (201 / 20) ∧
      |(201 / 20 : ℚ) - 10| ≤ Config.default.tolerance.toRat ∧
      (nodes .default "" ⟨.number, Bytes.ofString "10"⟩
        ⟨.number, Bytes.ofString "10.05"⟩).value = .matched := by
  have hvalid : Config.default.isValid = true := by decide +kernel
  have ha : IsNumberOf (Bytes.ofString "10.05") (201 / 20) :=
    isNumberOf_parts isWhole_ten (.point (x := Bytes.ofString "05") (by decide +kernel)) .none
      (by decide +kernel) (by decide +kernel)
  have hdistance : |(201 / 20 : ℚ) - 10| ≤ Config.default.tolerance.toRat := by decide +kernel
  have hsmall : ¬ (overflow ≤ |(10 : ℚ)| ∧ overflow ≤ |(201 / 20 : ℚ)| ∧
      ((10 : ℚ) < 0 ↔ (201 / 20 : ℚ) < 0)) := by decide +kernel
  refine ⟨hvalid, isNumberOf_ten, ha, hdistance, ?_⟩
  rw [numbers_within hvalid isNumberOf_ten ha "" hdistance, if_neg hsmall]

theorem numbers_within_overflow :
    Config.default.isValid = true ∧ IsNumberOf (Bytes.ofString "1e400") (10 ^ 400) ∧
      Document.root (Bytes.ofString "1e400") = .ok ⟨.number, Bytes.ofString "1e400"⟩ ∧
      |(10 ^ 400 : ℚ) - 10 ^ 400| ≤ Config.default.tolerance.toRat ∧
      (nodes .default "" ⟨.number, Bytes.ofString "1e400"⟩
        ⟨.number, Bytes.ofString "1e400"⟩).value = .mismatch ⟨"", "1e400", "1e400"⟩ := by
  have hx : IsNumberOf (Bytes.ofString "1e400") (10 ^ 400) :=
    isNumberOf_parts (w := Bytes.ofString "1")
      (isWhole_of_isDigits (by decide +kernel) (by decide +kernel)) .none
      (.positive (x := Bytes.ofString "400") (.inl rfl) (.inl rfl) (by decide +kernel))
      (by decide +kernel) (by decide +kernel)
  have hvalue : Node.numberValue ⟨.number, Bytes.ofString "1e400"⟩ = .ok (.infinite false) :=
    Node.numberValue_ofString (by decide +kernel)
  have hwithin : NumberTest.within (.infinite false) (.infinite false) Config.default.tolerance =
      false := by decide +kernel
  refine ⟨by decide +kernel, hx, Document.root_number hx, by decide +kernel, ?_⟩
  rw [value_nodes]
  show number _ _ _ _ = _
  rw [number_of_numberValue rfl hvalue hvalue, hwithin]
  cbv

section

variable {config : Config} (hvalid : config.isValid = true) {e a : Bytes} {p q : ℚ}
  (he : IsNumberOf e p) (ha : IsNumberOf a q)

include hvalid he ha

theorem value_of_beyond (path : String) {r : Binary64}
    (hr : reach config ⟨.number, e⟩ ⟨.number, a⟩ = .ok r) (hfinite : r.isFinite = true)
    (h : config.tolerance.toRat + (1 ⊔ (|q| ⊔ |p|)) / 2 ^ 50 < |q - p|) :
    (nodes config path ⟨.number, e⟩ ⟨.number, a⟩).value =
      .mismatch (byValue path ⟨.number, e⟩ ⟨.number, a⟩) := by
  obtain ⟨x, target, hx, htarget, hreach, hvalue⟩ := exists_nodes_number he ha config path
  obtain rfl := Except.ok.inj (hreach.symm.trans hr)
  have hwithin : NumberTest.within x target config.tolerance = false :=
    Bool.eq_false_iff.2 fun hwithin =>
      h.not_ge (NumberTest.abs_sub_le_of_within hx htarget (Config.isFinite_tolerance hvalid)
        (Config.zero_le_tolerance hvalid) hfinite hwithin)
  rw [hvalue, hwithin]
  rfl

theorem isFinite_reach (h : config.tolerance.toRat + (1 ⊔ (|q| ⊔ |p|)) < overflow) :
    ∃ r, reach config ⟨.number, e⟩ ⟨.number, a⟩ = .ok r ∧ r.isFinite = true := by
  obtain ⟨x, target, hx, htarget, hreach, -⟩ := exists_nodes_number he ha config ""
  exact ⟨_, hreach, NumberTest.isFinite_reach hx htarget (Config.isFinite_tolerance hvalid)
    (Config.zero_le_tolerance hvalid) h⟩

/-- Literals beyond the tolerance do not match, if they are beyond it by more than a few of their
last binary digits and the widened tolerance is finite. So they do not wherever they are beyond it
by a thousandth and neither is larger than `2 ^ 40`. -/
theorem numbers_beyond (path : String) :
    (∀ r, reach config ⟨.number, e⟩ ⟨.number, a⟩ = .ok r → r.isFinite = true →
      config.tolerance.toRat + (1 ⊔ (|q| ⊔ |p|)) / 2 ^ 50 < |q - p| →
      (nodes config path ⟨.number, e⟩ ⟨.number, a⟩).value =
        .mismatch (byValue path ⟨.number, e⟩ ⟨.number, a⟩)) ∧
    (|p| ≤ 2 ^ 40 → |q| ≤ 2 ^ 40 → config.tolerance.toRat + 1 / 1000 < |q - p| →
      (nodes config path ⟨.number, e⟩ ⟨.number, a⟩).value =
        .mismatch (byValue path ⟨.number, e⟩ ⟨.number, a⟩)) := by
  refine ⟨fun r hr hfinite h => value_of_beyond hvalid he ha path hr hfinite h,
    fun hp hq h => ?_⟩
  have hlargest : 1 ⊔ (|q| ⊔ |p|) ≤ 2 ^ 40 := sup_le (by norm_num) (sup_le hq hp)
  have hdistance : |q - p| ≤ |q| + |p| := abs_sub ..
  have hlimit := le_overflow (show (2 : ℚ) ^ 42 ≤ 2 ^ 970 from
    pow_le_pow_right₀ (by norm_num) (by norm_num))
  obtain ⟨r, hr, hfinite⟩ := isFinite_reach hvalid he ha
    (show config.tolerance.toRat + (1 ⊔ (|q| ⊔ |p|)) < overflow by linarith)
  exact value_of_beyond hvalid he ha path hr hfinite (by linarith)

end

theorem numbers_beyond_bound :
    Config.default.isValid = true ∧ IsNumberOf (Bytes.ofString "10") 10 ∧
      IsNumberOf (Bytes.ofString "10.052") (2513 / 250) ∧
      |(10 : ℚ)| ≤ 2 ^ 40 ∧ |(2513 / 250 : ℚ)| ≤ 2 ^ 40 ∧
      Config.default.tolerance.toRat + 1 / 1000 < |(2513 / 250 : ℚ) - 10| ∧
      (nodes .default "" ⟨.number, Bytes.ofString "10"⟩
        ⟨.number, Bytes.ofString "10.052"⟩).value = .mismatch ⟨"", "10", "10.052"⟩ := by
  have hvalid : Config.default.isValid = true := by decide +kernel
  have ha : IsNumberOf (Bytes.ofString "10.052") (2513 / 250) :=
    isNumberOf_parts isWhole_ten (.point (x := Bytes.ofString "052") (by decide +kernel)) .none
      (by decide +kernel) (by decide +kernel)
  have hp : |(10 : ℚ)| ≤ 2 ^ 40 := by decide +kernel
  have hq : |(2513 / 250 : ℚ)| ≤ 2 ^ 40 := by decide +kernel
  have hfar : Config.default.tolerance.toRat + 1 / 1000 < |(2513 / 250 : ℚ) - 10| := by
    decide +kernel
  refine ⟨hvalid, isNumberOf_ten, ha, hp, hq, hfar, ?_⟩
  rw [(numbers_beyond hvalid isNumberOf_ten ha "").2 hp hq hfar]
  cbv

/-- Two literals that differ by one are read as the same number. -/
theorem numbers_beyond_digits :
    Config.default.isValid = true ∧ IsNumberOf (Bytes.ofString "9007199254740992") (2 ^ 53) ∧
      IsNumberOf (Bytes.ofString "9007199254740993") (2 ^ 53 + 1) ∧
      Config.default.tolerance.toRat + 1 / 1000 < |(2 ^ 53 + 1 : ℚ) - 2 ^ 53| ∧
      (nodes .default "" ⟨.number, Bytes.ofString "9007199254740992"⟩
        ⟨.number, Bytes.ofString "9007199254740993"⟩).value = .matched := by
  have hp : IsNumberOf (Bytes.ofString "9007199254740992") (2 ^ 53) :=
    isNumberOf_parts (w := Bytes.ofString "9007199254740992")
      (isWhole_of_isDigits (by decide +kernel) (by decide +kernel)) .none .none
      (by decide +kernel) (by decide +kernel)
  have hq : IsNumberOf (Bytes.ofString "9007199254740993") (2 ^ 53 + 1) :=
    isNumberOf_parts (w := Bytes.ofString "9007199254740993")
      (isWhole_of_isDigits (by decide +kernel) (by decide +kernel)) .none .none
      (by decide +kernel) (by decide +kernel)
  have htarget : Node.numberValue ⟨.number, Bytes.ofString "9007199254740992"⟩ =
      .ok (.finite false (1 <<< 1127)) := Node.numberValue_ofString (by decide +kernel)
  have hx : Node.numberValue ⟨.number, Bytes.ofString "9007199254740993"⟩ =
      .ok (.finite false (1 <<< 1127)) := Node.numberValue_ofString (by decide +kernel)
  have hwithin : NumberTest.within (.finite false (1 <<< 1127)) (.finite false (1 <<< 1127))
      Config.default.tolerance = true := by decide +kernel
  refine ⟨by decide +kernel, hp, hq, by decide +kernel, ?_⟩
  rw [value_nodes]
  show number _ _ _ _ = _
  rw [number_of_numberValue rfl hx htarget, hwithin]
  rfl

end Compare

end DocMatch
