/-
This file bounds the shortest digits of a float.

The first grid that is tried has the power of ten of the leading digit, so seventeen grids give at
most seventeen digits. The point that is found lies in the interval of the value, which ends half a
gap above it.
-/

import LightList.Proofs.Decimal.ScaledRange
import LightList.Proofs.ShortestDigits

namespace LightList.Decimal

theorem ten_zpow_add (first second : ℤ) : (10 : ℚ) ^ (first + second) = 10 ^ first * 10 ^ second :=
  zpow_add₀ (by norm_num) first second

namespace Interval

variable {interval : Interval}

/-- This is what it means that the centre is at least a power of ten. -/
theorem atLeastPower_iff (interval : Interval) (exponent : ℤ) :
    interval.atLeastPower exponent = true ↔
      (interval.denominator : ℚ) * 10 ^ exponent ≤ interval.centre := by
  rw [atLeastPower, decide_eq_true_iff]
  exact (mul_zpow_le_iff (by decide)).symm

/-- Where a power of ten is not reached the centre lies below it. -/
theorem lt_of_atLeastPower {exponent : ℤ} (below : ¬ interval.atLeastPower exponent = true) :
    (interval.centre : ℚ) < interval.denominator * 10 ^ exponent :=
  not_le.1 fun reached => below ((interval.atLeastPower_iff exponent).2 reached)

/-- The guess from the logarithms of the base two is at most one too small for this power. -/
def coversPower (power : ℤ) : Bool :=
  let guess := power * 30103 / 100000
  Nat.ble (Nat.pow 10 (-(guess + 2)).toNat * Nat.pow 2 (power + 1).toNat)
    (Nat.pow 10 (guess + 2).toNat * Nat.pow 2 (-(power + 1)).toNat)

/-- These are more powers than the floats have. -/
theorem coversPower_range :
    ((List.range 2200).all fun offset => coversPower ((offset : ℤ) - 1100)) = true := by
  decide +kernel

/-- The guess from the logarithms is at most two too small. -/
theorem two_zpow_le_ten_zpow {power : ℤ} (lowest : -1100 ≤ power) (highest : power < 1100) :
    (2 : ℚ) ^ (power + 1) ≤ 10 ^ (power * 30103 / 100000 + 2) := by
  obtain ⟨offset, isOffset⟩ := Int.eq_ofNat_of_zero_le (by omega : 0 ≤ power + 1100)
  have covered := List.all_eq_true.1 coversPower_range offset (List.mem_range.2 (by omega))
  have same : (offset : ℤ) - 1100 = power := by omega
  rw [same, coversPower] at covered
  generalize power * 30103 / 100000 + 2 = exponent at covered ⊢
  have counted : ((10 ^ (-exponent).toNat : ℕ) : ℚ) * (2 : ℕ) ^ (power + 1) ≤
      ((10 ^ exponent.toNat : ℕ) : ℚ) :=
    (mul_zpow_le_iff (by decide)).2 (Nat.le_of_ble_eq_true covered)
  rw [Nat.cast_pow, Nat.cast_pow, ← zpow_mul_pow_toNat (by decide) exponent, mul_comm] at counted
  exact le_of_mul_le_mul_right counted (by positivity)

/-- The centre is below the second power of ten from the guess on. -/
theorem centre_lt_leadingExponent {interval : Interval} (positive : interval.denominator ≠ 0)
    (lowest : -1100 ≤ (interval.centre.log2 : ℤ) - interval.denominator.log2)
    (highest : (interval.centre.log2 : ℤ) - interval.denominator.log2 < 1100) :
    (interval.centre : ℚ) < interval.denominator * 10 ^ (interval.leadingExponent + 1) := by
  unfold leadingExponent
  dsimp only
  generalize isDifference : (interval.centre.log2 : ℤ) - interval.denominator.log2 = difference
    at lowest highest ⊢
  split
  · have covered := two_zpow_le_ten_zpow lowest highest
    have above : (interval.centre : ℚ) <
        2 ^ ((interval.denominator.log2 : ℤ) + (difference + 1)) := by
      have same : (interval.denominator.log2 : ℤ) + (difference + 1) =
          ((interval.centre.log2 + 1 : ℕ) : ℤ) := by omega
      rw [same, two_zpow_eq_cast, Nat.cast_lt]
      exact Nat.lt_log2_self
    have below : (2 : ℚ) ^ (interval.denominator.log2 : ℤ) ≤ interval.denominator := by
      rw [two_zpow_eq_cast, Nat.cast_le]
      exact Nat.log2_self_le positive
    calc
      (interval.centre : ℚ) < 2 ^ ((interval.denominator.log2 : ℤ) + (difference + 1)) := above
      _ = 2 ^ (interval.denominator.log2 : ℤ) * 2 ^ (difference + 1) := two_zpow_add _ _
      _ ≤ interval.denominator * 10 ^ (difference * 30103 / 100000 + 1 + 1) := by
        rw [Int.add_assoc]
        exact mul_le_mul below covered (two_zpow_pos _).le (Nat.cast_nonneg _)
  · next below =>
      split
      · exact lt_of_atLeastPower below
      · next notReached =>
          rw [Int.sub_add_cancel]
          exact lt_of_atLeastPower notReached

/-- A grid is coarse enough for as many digits as there are powers up to the leading one. -/
theorem significand_le_of_onGrid? {exponent : ℤ} {width : ℕ} (positive : interval.denominator ≠ 0)
    (bounded : (interval.centre : ℚ) < interval.denominator * 10 ^ (exponent + width))
    {digits : Digits} (found : interval.onGrid? exponent = some digits) :
    digits.significand ≤ 10 ^ width := by
  have unit : 0 < interval.denominator * Nat.pow 10 exponent.toNat :=
    Nat.mul_pos (Nat.pos_of_ne_zero positive) (Nat.pow_pos (by decide))
  have floor : interval.centre * Nat.pow 10 (-exponent).toNat /
      (interval.denominator * Nat.pow 10 exponent.toNat) < 10 ^ width := by
    have same : (interval.denominator : ℚ) * 10 ^ (exponent + width) =
        ((10 ^ width * interval.denominator : ℕ) : ℚ) * (10 : ℕ) ^ exponent := by
      rw [ten_zpow_add, zpow_natCast]
      push_cast
      ring
    rw [same, ← not_le, mul_zpow_le_iff (by decide), not_le, Nat.mul_assoc] at bounded
    exact (Nat.div_lt_iff_lt_mul unit).2 bounded
  rcases (point_of_onGrid? found).2.1 with isFloor | isCeiling
  · rw [isFloor]
    exact floor.le
  · rw [isCeiling]
    exact floor

/-- Each further grid gives room for one more digit. -/
theorem significand_le_of_search {count : ℕ} {exponent : ℤ} {width : ℕ}
    (positive : interval.denominator ≠ 0)
    (bounded : (interval.centre : ℚ) < interval.denominator * 10 ^ (exponent + width))
    {digits : Digits} (found : interval.search count exponent = some digits) :
    digits.significand * 10 ≤ 10 ^ (width + count) := by
  induction count generalizing exponent width with
  | zero => cases found
  | succ count inductionHypothesis =>
      unfold search at found
      split at found
      · next onGrid =>
          cases found
          have few := significand_le_of_onGrid? positive bounded onGrid
          calc
            digits.significand * 10 ≤ 10 ^ width * 10 := Nat.mul_le_mul_right 10 few
            _ = 10 ^ (width + 1) := (Nat.pow_succ ..).symm
            _ ≤ 10 ^ (width + (count + 1)) := Nat.pow_le_pow_right (by decide) (by omega)
      · have wider : exponent + width = exponent - 1 + (width + 1 : ℕ) := by omega
        rw [wider] at bounded
        have few := inductionHypothesis bounded found
        rw [Nat.add_right_comm] at few
        exact few

/-- The leading power is next to the guess. -/
theorem abs_leadingExponent_le
    (lowest : -1100 ≤ (interval.centre.log2 : ℤ) - interval.denominator.log2)
    (highest : (interval.centre.log2 : ℤ) - interval.denominator.log2 < 1100) :
    -340 ≤ interval.leadingExponent ∧ interval.leadingExponent ≤ 340 := by
  unfold leadingExponent
  dsimp only
  split
  · omega
  · split <;> omega

/-- Digits that are found have an exponent from the range that was searched. -/
theorem exponent_of_search {count : ℕ} {exponent : ℤ} {digits : Digits}
    (found : interval.search count exponent = some digits) :
    exponent - count ≤ digits.exponent ∧ digits.exponent ≤ exponent := by
  induction count generalizing exponent with
  | zero => cases found
  | succ count inductionHypothesis =>
      unfold search at found
      split at found
      · next onGrid =>
          cases found
          have same := (point_of_onGrid? onGrid).1
          omega
      · have range := inductionHypothesis found
        omega

/-- A point of the interval is at most its end. -/
theorem le_high_of_contains {digits : Digits} (inside : interval.contains digits = true) :
    ((digits.significand * interval.denominator : ℕ) : ℚ) * (10 : ℕ) ^ digits.exponent ≤
      interval.high := by
  rw [mul_zpow_le_iff (by decide)]
  unfold contains at inside
  dsimp only at inside
  split at inside
  · simp only [Bool.and_eq_true, decide_eq_true_eq] at inside
    exact inside.2
  · simp only [Bool.and_eq_true, decide_eq_true_eq] at inside
    exact inside.2.le

end Interval

namespace Digits

def value (digits : Digits) : ℚ := digits.significand * 10 ^ digits.exponent

/-- Trailing zeros move into the exponent, and the value stays. -/
theorem value_trim (digits : Digits) (count : ℕ) : (digits.trim count).value = digits.value := by
  induction count generalizing digits with
  | zero => rfl
  | succ count inductionHypothesis =>
      unfold trim
      split
      · next ends =>
          rw [inductionHypothesis]
          have whole : digits.significand / 10 * 10 = digits.significand :=
            Nat.div_mul_cancel (Nat.dvd_of_mod_eq_zero ends.2)
          have cast : ((digits.significand / 10 : ℕ) : ℚ) * 10 = digits.significand := by
            exact_mod_cast whole
          rw [value, value, add_comm, ten_zpow_add, zpow_one, ← mul_assoc, cast]
      · rfl

/-- Each zero that is dropped raises the exponent by at most one. -/
theorem exponent_trim (digits : Digits) (count : ℕ) :
    digits.exponent ≤ (digits.trim count).exponent ∧
      (digits.trim count).exponent ≤ digits.exponent + count := by
  induction count generalizing digits with
  | zero => exact ⟨le_refl _, (Int.add_zero _).ge⟩
  | succ count inductionHypothesis =>
      unfold trim
      split
      · have range := inductionHypothesis ⟨digits.significand / 10, digits.exponent + 1⟩
        dsimp only at range
        omega
      · omega

/-- Dropping zeros never makes the significand larger. -/
theorem significand_trim_le (digits : Digits) (count : ℕ) :
    (digits.trim count).significand ≤ digits.significand := by
  induction count generalizing digits with
  | zero => exact Nat.le_refl _
  | succ count inductionHypothesis =>
      unfold trim
      split
      · exact (inductionHypothesis _).trans (Nat.div_le_self _ 10)
      · exact Nat.le_refl _

end Digits

/-- The interval ends half a gap above the value. -/
theorem Interval.value_le_of_contains {significand : ℕ} {power : ℤ} {digits : Digits}
    (inside : (ofBinary significand power).contains digits = true) :
    digits.value * 4 ≤ (4 * significand + 2 : ℕ) * 2 ^ power := by
  have bounded : ((digits.significand * (4 * 2 ^ (-power).toNat) : ℕ) : ℚ) *
      (10 : ℕ) ^ digits.exponent ≤ ((4 * significand + 2) * 2 ^ power.toNat : ℕ) :=
    le_high_of_contains inside
  have scale : (0 : ℚ) < (2 : ℕ) ^ (-power).toNat := by positivity
  apply le_of_mul_le_mul_right _ scale
  calc
    digits.value * 4 * (2 : ℕ) ^ (-power).toNat =
        ((digits.significand * (4 * 2 ^ (-power).toNat) : ℕ) : ℚ) * (10 : ℕ) ^ digits.exponent := by
      rw [Digits.value]
      push_cast
      ring
    _ ≤ ((4 * significand + 2) * 2 ^ power.toNat : ℕ) := bounded
    _ = (4 * significand + 2 : ℕ) * 2 ^ power * (2 : ℕ) ^ (-power).toNat := by
      rw [mul_assoc, Nat.cast_mul, Nat.cast_pow]
      exact congrArg (_ * ·) (zpow_mul_pow_toNat (by decide) power).symm

/-- The limit is a mantissa of 54 bits at the highest exponent but one. -/
theorem belowLargest_eq : (belowLargest : ℚ) = (2 ^ 54 - 3 : ℕ) * 2 ^ (970 : ℤ) := by
  rw [belowLargest, Nat.cast_mul]
  exact congrArg (_ * ·) (two_zpow_eq_cast 970).symm

/-- These are the significands and powers of the finite floats other than zero. -/
structure IsBinary (significand : ℕ) (power : ℤ) : Prop where
  nonzero : significand ≠ 0
  fits : significand < 2 ^ 53
  lowest : -1074 ≤ power
  highest : power ≤ 971

namespace IsBinary

variable {significand : ℕ} {power : ℤ}

theorem denominator_ne_zero (significand : ℕ) (power : ℤ) :
    (Interval.ofBinary significand power).denominator ≠ 0 :=
  Nat.mul_ne_zero (by decide) (Nat.two_pow_pos _).ne'

/-- The logarithms are at most as far apart as the powers of two of the floats. -/
theorem log2_range (binary : IsBinary significand power) :
    -1100 ≤ ((Interval.ofBinary significand power).centre.log2 : ℤ) -
        (Interval.ofBinary significand power).denominator.log2 ∧
      ((Interval.ofBinary significand power).centre.log2 : ℤ) -
        (Interval.ofBinary significand power).denominator.log2 < 1100 := by
  obtain ⟨nonzero, fits, lowest, highest⟩ := binary
  have denominator : (Interval.ofBinary significand power).denominator = 2 ^ (2 + (-power).toNat) :=
    (Nat.pow_add 2 2 _).symm
  have centre : (Interval.ofBinary significand power).centre = 4 * significand * 2 ^ power.toNat :=
    rfl
  have some : 4 * significand * 2 ^ power.toNat ≠ 0 :=
    Nat.mul_ne_zero (by omega) (Nat.two_pow_pos _).ne'
  have below : (4 * significand * 2 ^ power.toNat).log2 < 55 + power.toNat := by
    have most : 4 * significand < 2 ^ 55 := by omega
    rw [Nat.log2_lt some, Nat.pow_add]
    exact Nat.mul_lt_mul_of_pos_right most (Nat.two_pow_pos _)
  rw [denominator, centre, Nat.log2_two_pow]
  omega

/-- A float lies below the power of ten that follows its leading one. -/
theorem centre_lt (binary : IsBinary significand power) :
    ((Interval.ofBinary significand power).centre : ℚ) <
      (Interval.ofBinary significand power).denominator *
        10 ^ ((Interval.ofBinary significand power).leadingExponent + (1 : ℕ)) :=
  Interval.centre_lt_leadingExponent (denominator_ne_zero significand power) binary.log2_range.1
    binary.log2_range.2

/-- Zeros that are moved take the exponent up, and further grids take it down. -/
theorem exponent_shortest (binary : IsBinary significand power) :
    -400 ≤ (shortest significand power).exponent ∧ (shortest significand power).exponent ≤ 400 := by
  have leading := Interval.abs_leadingExponent_le binary.log2_range.1 binary.log2_range.2
  unfold shortest
  dsimp only
  split
  · next digits found =>
      have searched := Interval.exponent_of_search found
      have trimmed := digits.exponent_trim 20
      omega
  · change (-400 : ℤ) ≤ 0 ∧ (0 : ℤ) ≤ 400
    decide

/-- Seventeen grids are tried. -/
theorem significand_shortest_le (binary : IsBinary significand power) :
    (shortest significand power).significand ≤ 10 ^ 17 := by
  unfold shortest
  dsimp only
  split
  · next digits found =>
      have few := Interval.significand_le_of_search (denominator_ne_zero significand power)
        binary.centre_lt found
      rw [Nat.add_comm, Nat.pow_succ] at few
      exact (digits.significand_trim_le 20).trans (Nat.le_of_mul_le_mul_right few (by decide))
  · exact binary.fits.le.trans (by decide)

/-- Only the largest float has an upper bound beyond the limit. -/
theorem high_le (binary : IsBinary significand power)
    (notLargest : ¬ (significand = 2 ^ 53 - 1 ∧ power = 971)) :
    ((4 * significand + 2 : ℕ) : ℚ) * 2 ^ power ≤ belowLargest * 4 := by
  obtain ⟨_, fits, _, highest⟩ := binary
  have quadruple : (belowLargest : ℚ) * 4 = (4 * (2 ^ 54 - 3) : ℕ) * 2 ^ (970 : ℤ) := by
    rw [belowLargest_eq, Nat.cast_mul]
    ring
  rw [quadruple]
  by_cases atHighest : power = 971
  · have next : (2 : ℚ) ^ (971 : ℤ) = 2 * 2 ^ (970 : ℤ) := two_zpow_add 1 970
    have most : (4 * significand + 2) * 2 ≤ 4 * (2 ^ 54 - 3) := by omega
    rw [atHighest, next, ← mul_assoc]
    exact mul_le_mul_of_nonneg_right (by exact_mod_cast most) (two_zpow_pos 970).le
  · have most : 4 * significand + 2 ≤ 4 * (2 ^ 54 - 3) := by omega
    apply mul_le_mul (by exact_mod_cast most) _ (two_zpow_pos power).le (Nat.cast_nonneg _)
    exact zpow_le_zpow_right₀ (by norm_num) (by omega)

/-- Only the interval of the largest float ends above this. -/
theorem value_shortest_le (binary : IsBinary significand power)
    (notLargest : ¬ (significand = 2 ^ 53 - 1 ∧ power = 971)) :
    (shortest significand power).value ≤ belowLargest := by
  unfold shortest
  dsimp only
  split
  · next digits found =>
      have inside := Interval.value_le_of_contains (Interval.contains_of_search found)
      rw [Digits.value_trim]
      exact le_of_mul_le_mul_right (inside.trans (binary.high_le notLargest)) (by norm_num)
  · have small : significand ≤ belowLargest := binary.fits.le.trans
      ((by decide : 2 ^ 53 ≤ 2 ^ 54 - 3).trans (Nat.le_mul_of_pos_right _ (by positivity)))
    rw [Digits.value, zpow_zero, mul_one]
    exact Nat.cast_le.2 small

/-- The shortest digits are always read as a finite float. -/
theorem isSome_scaled?_shortest (binary : IsBinary significand power) :
    (scaled? (shortest significand power).significand.toUInt64
      (shortest significand power).exponent).isSome = true := by
  by_cases isLargest : significand = 2 ^ 53 - 1 ∧ power = 971
  · rw [isLargest.1, isLargest.2]
    decide +kernel
  · exact isSome_scaled? (significand_shortest_ne_zero binary.nonzero power)
      binary.significand_shortest_le (binary.value_shortest_le isLargest)

end IsBinary

end LightList.Decimal
