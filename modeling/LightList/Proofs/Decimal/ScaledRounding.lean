/-
This file says which float a decimal is read as.

The significand, the power of ten and their product or quotient are rounded one after the other. So
the result is near the decimal, and it is the nearest float where the first two are exact.
-/

import LightList.Proofs.Decimal.Closeness
import LightList.Proofs.Decimal.FloatArithmetic
import LightList.Proofs.Decimal.ScaledRange

namespace LightList.Decimal

open Float.Model Float.Model.UnpackedFloat

section Powers

/-- This decides whether a float is a power of ten exactly. -/
def isPowerOfTen (exponent : ℕ) : UnpackedFloat → Bool
  | .finite .positive mantissa power _ =>
      mantissa < 2 ^ 53 && 2 ^ 52 ≤ mantissa && -1074 ≤ power &&
        mantissa * 2 ^ power.toNat = 10 ^ exponent * 2 ^ (-power).toNat
  | _ => false

/-- What is decided in whole numbers holds of the power of ten. -/
theorem hasSize_of_isPowerOfTen {exponent : ℕ} {value : UnpackedFloat}
    (decided : isPowerOfTen exponent value = true) : HasSize .positive (10 ^ exponent) value := by
  cases value with
  | infinity _ => cases decided
  | notANumber => cases decided
  | zero _ => cases decided
  | finite sign mantissa power _ =>
      cases sign with
      | negative => cases decided
      | positive =>
          simp only [isPowerOfTen, Bool.and_eq_true, decide_eq_true_eq] at decided
          obtain ⟨⟨⟨fits, leading⟩, lowest⟩, same⟩ := decided
          refine ⟨rfl, ⟨fits, lowest, .inr leading⟩, ?_⟩
          have scale : (0 : ℚ) < (2 : ℕ) ^ (-power).toNat := by positivity
          apply mul_right_cancel₀ scale.ne'
          rw [mul_assoc]
          refine Eq.trans ?_ (congrArg (_ * ·) (zpow_mul_pow_toNat (by decide) power)).symm
          exact_mod_cast same.symm

/-- The powers of ten with an exponent below 23 are exact. -/
theorem isPowerOfTen_small : ∀ exponent < 23,
    isPowerOfTen exponent (powerOfTen exponent).toModel.unpack = true := by
  decide +kernel

/-- The powers of ten up to the largest one that is used are not too large. -/
theorem ten_pow_le_largest {exponent : ℕ} (small : exponent ≤ 308) :
    (10 : ℚ) ^ exponent ≤ (2 ^ 53 - 1 : ℕ) * 2 ^ (971 : ℤ) := by
  have bounded : 10 ^ exponent ≤ largest :=
    (pow_le_pow_right₀ (by decide) small).trans powers_bounded.2.2.1
  rw [← largest_eq]
  exact_mod_cast bounded

/-- The powers of ten are rounded, and the first of them are floats themselves. -/
theorem exists_powerOfTen {exponent : ℕ} (small : exponent ≤ 308) :
    ∃ size, RoundsTo (10 ^ exponent) size ∧ IsSized .positive size (powerOfTen exponent) ∧
      (exponent ≤ 22 → size = 10 ^ exponent) := by
  have isLargest : IsMantissa (2 ^ 53 - 1) 971 := ⟨by decide, by decide, .inr (by decide)⟩
  have limit := lt_of_highest (by decide : 2 ^ 53 - 1 < 2 ^ 53) (le_refl 971)
  by_cases exact : exponent ≤ 22
  · have hasSize := hasSize_of_isPowerOfTen (isPowerOfTen_small exponent (by omega))
    exact ⟨_, hasSize.roundsTo_self, ⟨hasSize, (ten_pow_le_largest small).trans_lt limit⟩,
      fun _ => rfl⟩
  · obtain ⟨size, rounds, hasSize⟩ := hasSize_roundWithAccuracy .positive
      (.ofExact (2 ^ 53 * 10 ^ exponent)) (.inl (le_log2_ten_pow exponent) : _ ∨ (-53 : ℤ) ≤ _)
    rw [ten_pow_eq, Nat.cast_pow, Nat.cast_ofNat] at rounds
    have reached : size < 2 ^ (1024 : ℤ) :=
      (rounds.le_of_le isLargest (ten_pow_le_largest small)).trans_lt limit
    refine ⟨size, rounds, ?_, fun below => (exact below).elim⟩
    rw [powerOfTen_eq_pack (by omega) small]
    exact hasSize.isPacked.sized reached

end Powers

section Steps

variable {value : Float} {size : ℚ} {exponent : ℕ}

/-- Dividing by a power of ten makes no value larger. -/
theorem exists_division (sized : IsSized .positive size value) (small : exponent ≤ 308) :
    ∃ power quotient, RoundsTo (10 ^ exponent) power ∧ (exponent ≤ 22 → power = 10 ^ exponent) ∧
      1 ≤ power ∧ RoundsTo (size / power) quotient ∧
      IsSized .positive quotient (value / powerOfTen exponent) := by
  obtain ⟨power, rounds, powerSized, exact⟩ := exists_powerOfTen small
  have large : 1 ≤ power := rounds.ge_of_isFloatSize isFloatSize_one (one_le_pow₀ (by norm_num))
  obtain ⟨quotient, divided, packed⟩ :=
    exists_div sized powerSized (zero_lt_one.trans_le large).ne'
  have notLarger : quotient ≤ size :=
    divided.le_of_isFloatSize sized.hasSize.isFloatSize (div_le_self sized.hasSize.nonneg large)
  exact ⟨power, quotient, rounds, exact, large, divided,
    packed.sized (notLarger.trans_lt sized.small)⟩

/-- A float that compares equal to zero has the size zero. -/
theorem eq_zero_of_beq (sized : IsSized .positive size value) (isZero : (value == 0) = true) :
    size = 0 := by
  have bits : (0 : Float).toBits = 0 := rfl
  have zero : (0 : Float).toModel.unpack = .zero .positive := by
    change unpack Format.binary64 (0 : Float).toBits.toBitVec = _
    rw [bits]
    rfl
  have compared : value.toModel.unpack.beq (0 : Float).toModel.unpack = true := isZero
  rw [zero, beq_iff_ne_notANumber_and_eq] at compared
  have hasSize := sized.hasSize
  rcases compared.2.2 with same | ⟨_, other⟩ | ⟨same, _⟩
  · rw [same] at hasSize
    exact hasSize.2
  · cases other
  · rw [same] at hasSize
    exact hasSize.2

/-- Whatever the power of ten, a finite value is divided into a finite one. -/
theorem exists_divided {steps : ℕ} (sized : IsSized .positive size value)
    (few : exponent < (steps + 1) * 308) :
    ∃ quotient, IsSized .positive quotient (divided steps value exponent) := by
  induction steps generalizing value size exponent with
  | zero =>
      obtain ⟨_, quotient, _, _, _, _, divides⟩ := exists_division sized (by omega : exponent ≤ 308)
      exact ⟨quotient, divides⟩
  | succ steps inductionHypothesis =>
      unfold divided
      split
      · next small =>
          obtain ⟨_, quotient, _, _, _, _, divides⟩ := exists_division sized small
          exact ⟨quotient, divides⟩
      · split
        · exact ⟨size, sized⟩
        · obtain ⟨_, _, _, _, _, _, divides⟩ := exists_division sized (le_refl 308)
          refine inductionHypothesis divides ?_
          unfold largestPower
          omega

/-- A product with a power of ten is refused if it is an infinity, and no product is anything else. -/
theorem exists_product (sized : IsSized .positive size value) (small : exponent ≤ 308)
    (finite : (value * powerOfTen exponent).isInf = false) :
    ∃ power product, RoundsTo (10 ^ exponent) power ∧ (exponent ≤ 22 → power = 10 ^ exponent) ∧
      RoundsTo (size * power) product ∧
      IsSized .positive product (value * powerOfTen exponent) := by
  obtain ⟨power, rounds, powerSized, exact⟩ := exists_powerOfTen small
  obtain ⟨product, multiplied, packed⟩ := exists_mul sized powerSized
  refine ⟨power, product, rounds, exact, multiplied, packed.sized ?_⟩
  by_contra large
  have infinite := packed.infinite (not_lt.1 large)
  change (value * powerOfTen exponent).toModel.unpack.isInf = false at finite
  rw [infinite] at finite
  cases finite

end Steps

section Nearness

variable {value : Float} {size exact relative absolute : ℚ} {exponent : ℕ}

theorem one_normal : (2 : ℚ) ^ (-1022 : ℤ) ≤ 1 := zpow_le_one_of_nonpos₀ (by norm_num) (by norm_num)

/-- A power of ten is off by at most one relative unit. -/
theorem isClose_powerOfTen {power : ℚ} (rounds : RoundsTo (10 ^ exponent) power) :
    IsClose 1 0 (10 ^ exponent) power :=
  rounds.isClose_of_normal (one_normal.trans (one_le_pow₀ (by norm_num)))

/-- A division moves a value by the power and by the quotient, which are both rounded. -/
theorem exists_close_division (sized : IsSized .positive size value)
    (close : IsClose relative absolute exact size) (nonneg : 0 ≤ exact) (small : exponent ≤ 308)
    (absoluteNonneg : 0 ≤ absolute) (relativeNonneg : 0 ≤ relative) (few : relative ≤ 4) :
    ∃ quotient, IsClose (relative + 9 / 4) (absolute + 1 + absolute / 8) (exact / 10 ^ exponent)
        quotient ∧
      IsSized .positive quotient (value / powerOfTen exponent) := by
  obtain ⟨power, quotient, rounds, _, large, divided, divides⟩ := exists_division sized small
  have first := close.div (isClose_powerOfTen rounds) nonneg large (by positivity) absoluteNonneg
    relativeNonneg (by linarith)
  have second := divided.isClose
    (div_nonneg sized.hasSize.nonneg (zero_le_one.trans large))
  have both := first.trans second (by positivity) absoluteNonneg zero_le_one (by linarith)
    (by norm_num)
  have total : relative + 1 + 1 / 8 + 1 + 1 / 8 = relative + 9 / 4 := by ring
  rw [total] at both
  exact ⟨quotient, both, divides⟩

/-- A product does so too. -/
theorem exists_close_product (sized : IsSized .positive size value)
    (close : IsClose 1 0 exact size) (nonneg : 0 ≤ exact) (small : exponent ≤ 308)
    (finite : (value * powerOfTen exponent).isInf = false) :
    ∃ product, IsClose (13 / 4) 1 (exact * 10 ^ exponent) product ∧
      IsSized .positive product (value * powerOfTen exponent) := by
  obtain ⟨power, product, rounds, _, multiplied, multiplies⟩ := exists_product sized small finite
  have first := close.mul (isClose_powerOfTen rounds) nonneg (by positivity) zero_le_one
    (by norm_num)
  have second := multiplied.isClose (mul_nonneg sized.hasSize.nonneg rounds.nonneg)
  have both := first.trans second (by positivity) le_rfl zero_le_one (by norm_num) (by norm_num)
  exact ⟨product, both.mono (by positivity) (by norm_num) (by norm_num), multiplies⟩

/-- One division is enough for a power of ten that is a float. -/
theorem divided_of_le (small : exponent ≤ 308) (value : Float) :
    divided (exponent / largestPower) value exponent = value / powerOfTen exponent := by
  cases steps : exponent / largestPower with
  | zero => rfl
  | succ steps => exact if_pos small

theorem div_ten_pow (dividend : ℚ) {first total : ℕ} (below : first ≤ total) :
    dividend / 10 ^ first / 10 ^ (total - first) = dividend / 10 ^ total := by
  rw [div_div, ← pow_add, Nat.add_sub_cancel' below]

/-- Two divisions are enough for every power that a float is written with. -/
theorem exists_close_divided (sized : IsSized .positive size value)
    (close : IsClose 1 0 exact size) (nonneg : 0 ≤ exact) (nonzero : size ≠ 0)
    (small : exponent ≤ 400) :
    ∃ quotient, IsClose (11 / 2) (17 / 8) (exact / 10 ^ exponent) quotient ∧
      IsSized .positive quotient (divided (exponent / largestPower) value exponent) := by
  by_cases short : exponent ≤ 308
  · obtain ⟨quotient, near, divides⟩ :=
      exists_close_division sized close nonneg short le_rfl zero_le_one (by norm_num)
    rw [divided_of_le short]
    exact ⟨quotient, near.mono (by positivity) (by norm_num) (by norm_num), divides⟩
  · -- The largest power is taken off first, and one more division is left.
    obtain ⟨middle, firstNear, firstDivides⟩ :=
      exists_close_division sized close nonneg (le_refl 308) le_rfl zero_le_one (by norm_num)
    obtain ⟨quotient, near, divides⟩ := exists_close_division firstDivides firstNear
      (by positivity) (by omega : exponent - 308 ≤ 308) (by norm_num) (by norm_num) (by norm_num)
    have twice : exponent / largestPower = 1 := by
      unfold largestPower
      omega
    have some : ¬ (value == 0) = true := fun isZero => nonzero (eq_zero_of_beq sized isZero)
    have opened : divided 1 value exponent =
        value / powerOfTen 308 / powerOfTen (exponent - 308) :=
      (if_neg short).trans (if_neg some)
    rw [div_ten_pow exact (by omega)] at near
    rw [twice, opened]
    exact ⟨quotient, near.mono (by positivity) (by norm_num) (by norm_num), divides⟩

end Nearness

section Reading

variable {significand : UInt64} {exponent : ℤ} {value : Float}

/-- Whatever is read is finite and has no sign yet. -/
theorem exists_of_scaled? (found : scaled? significand exponent = some value) :
    ∃ size, IsSized .positive size value := by
  obtain ⟨size, _, sized⟩ := exists_toFloat significand
  unfold scaled? at found
  dsimp only at found
  split at found
  · cases found
    apply exists_divided sized
    unfold largestPower
    omega
  · split at found
    · next small =>
        split at found
        · cases found
        · next finite =>
            cases found
            obtain ⟨_, product, _, _, _, multiplied⟩ :=
              exists_product sized (by unfold largestPower at small; omega)
                (Bool.eq_false_iff.2 finite)
            exact ⟨product, multiplied⟩
    · split at found
      · cases found
        exact ⟨size, sized⟩
      · cases found

/-- Where the significand and the power of ten are floats themselves, the decimal is rounded once. -/
theorem roundsTo_of_scaled? (isFloat : IsFloatSize significand.toNat) (small : exponent.natAbs ≤ 22)
    (found : scaled? significand exponent = some value) :
    ∃ size, RoundsTo (significand.toNat * 10 ^ exponent) size ∧ IsSized .positive size value := by
  obtain ⟨size, rounds, sized⟩ := exists_toFloat significand
  rw [rounds.eq_of_isFloatSize isFloat] at sized
  unfold scaled? at found
  dsimp only at found
  split at found
  · next negative =>
      cases found
      have none : exponent.natAbs / largestPower = 0 := by
        unfold largestPower
        omega
      have inverse : (10 : ℚ) ^ exponent = (10 ^ exponent.natAbs)⁻¹ := by
        rw [← zpow_natCast, ← zpow_neg]
        congr 1
        omega
      obtain ⟨power, quotient, _, exact, _, divided, divides⟩ :=
        exists_division sized (by omega : exponent.natAbs ≤ 308)
      rw [none]
      rw [exact small] at divided
      rw [inverse, ← div_eq_mul_inv]
      exact ⟨quotient, divided, divides⟩
  · next notNegative =>
      have raised : (10 : ℚ) ^ exponent = 10 ^ exponent.natAbs := by
        rw [← zpow_natCast]
        congr 1
        omega
      rw [if_pos (by unfold largestPower; omega)] at found
      split at found
      · cases found
      · next finite =>
          cases found
          obtain ⟨power, product, _, exact, multiplied, multiplies⟩ :=
            exists_product sized (by omega : exponent.natAbs ≤ 308) (Bool.eq_false_iff.2 finite)
          rw [exact small] at multiplied
          rw [raised]
          exact ⟨product, multiplied, multiplies⟩

/-- Otherwise the result is still near the decimal. -/
theorem isClose_of_scaled? (positive : significand ≠ 0) (small : exponent.natAbs ≤ 400)
    (found : scaled? significand exponent = some value) :
    ∃ size, IsClose (11 / 2) (17 / 8) (significand.toNat * 10 ^ exponent) size ∧
      IsSized .positive size value := by
  obtain ⟨size, rounds, sized⟩ := exists_toFloat significand
  have whole : (1 : ℚ) ≤ significand.toNat := by
    have some : significand.toNat ≠ 0 := fun isZero => positive (UInt64.toNat_inj.1 isZero)
    exact_mod_cast Nat.one_le_iff_ne_zero.2 some
  have nonneg := zero_le_one.trans whole
  have large : 1 ≤ size := rounds.ge_of_isFloatSize isFloatSize_one whole
  have close := rounds.isClose_of_normal (one_normal.trans whole)
  unfold scaled? at found
  dsimp only at found
  split at found
  · next negative =>
      cases found
      have inverse : (10 : ℚ) ^ exponent = (10 ^ exponent.natAbs)⁻¹ := by
        rw [← zpow_natCast, ← zpow_neg]
        congr 1
        omega
      rw [inverse, ← div_eq_mul_inv]
      exact exists_close_divided sized close nonneg (zero_lt_one.trans_le large).ne' small
  · next notNegative =>
      have raised : (10 : ℚ) ^ exponent = 10 ^ exponent.natAbs := by
        rw [← zpow_natCast]
        congr 1
        omega
      rw [raised]
      split at found
      · next within =>
        unfold largestPower at within
        split at found
        · cases found
        · next finite =>
            cases found
            obtain ⟨product, near, multiplies⟩ := exists_close_product sized close nonneg
              (by omega : exponent.natAbs ≤ 308) (Bool.eq_false_iff.2 finite)
            exact ⟨product, near.mono (by positivity) (by norm_num) (by norm_num), multiplies⟩
      · split at found
        · next isZero =>
            rw [eq_zero_of_beq sized isZero] at large
            exact absurd large (by norm_num)
        · cases found

end Reading

end LightList.Decimal
