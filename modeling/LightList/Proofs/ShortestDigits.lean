/-
This file shows that the shortest digits of a value other than zero are not zero.
-/

import LightList.Decimal.Shortest

namespace LightList.Decimal

namespace Interval

/-- The interval of a positive value lies above zero. -/
theorem low_ofBinary_pos {significand : Nat} (positive : significand ≠ 0) (power : Int) :
    0 < (ofBinary significand power).low := by
  have up : 0 < Nat.pow 2 power.toNat := Nat.pow_pos (by decide)
  have below : 0 < 4 * significand -
      (if significand = Nat.pow 2 52 ∧ -1074 < power then 1 else 2) := by
    split
    · omega
    · omega
  exact Nat.mul_pos below up

/-- So zero is not in it. -/
theorem significand_ne_zero_of_contains {interval : Interval} (above : 0 < interval.low)
    {digits : Digits} (inside : interval.contains digits = true) : digits.significand ≠ 0 := by
  intro isZero
  have scale : 0 < Nat.pow 10 (-digits.exponent).toNat := Nat.pow_pos (by decide)
  have scaled : 0 < interval.low * Nat.pow 10 (-digits.exponent).toNat := Nat.mul_pos above scale
  unfold contains at inside
  simp only [isZero, Nat.zero_mul] at inside
  split at inside
  · simp only [Bool.and_eq_true, decide_eq_true_eq] at inside
    omega
  · simp only [Bool.and_eq_true, decide_eq_true_eq] at inside
    omega

/-- What a grid gives is one of the two points next to the centre, and it is in the interval. -/
theorem point_of_onGrid? {interval : Interval} {exponent : Int} {digits : Digits}
    (found : interval.onGrid? exponent = some digits) :
    digits.exponent = exponent ∧
      (digits.significand = interval.centre * Nat.pow 10 (-exponent).toNat /
          (interval.denominator * Nat.pow 10 exponent.toNat) ∨
        digits.significand = interval.centre * Nat.pow 10 (-exponent).toNat /
          (interval.denominator * Nat.pow 10 exponent.toNat) + 1) ∧
      interval.contains digits = true := by
  unfold onGrid? at found
  dsimp only at found
  split at found
  · cases found
  · next inFloor _ =>
      cases found
      exact ⟨rfl, .inl rfl, inFloor⟩
  · next _ inCeiling =>
      cases found
      exact ⟨rfl, .inr rfl, inCeiling⟩
  · next inFloor inCeiling =>
      split at found
      · cases found
        exact ⟨rfl, .inl rfl, inFloor⟩
      · split at found
        · cases found
          exact ⟨rfl, .inr rfl, inCeiling⟩
        · split at found
          · cases found
            exact ⟨rfl, .inl rfl, inFloor⟩
          · cases found
            exact ⟨rfl, .inr rfl, inCeiling⟩

/-- The digits that are found are in the interval. -/
theorem contains_of_search {interval : Interval} {count : Nat} {exponent : Int} {digits : Digits}
    (found : interval.search count exponent = some digits) : interval.contains digits = true := by
  induction count generalizing exponent with
  | zero => cases found
  | succ count inductionHypothesis =>
      unfold search at found
      split at found
      · next onGrid =>
          cases found
          exact (point_of_onGrid? onGrid).2.2
      · exact inductionHypothesis found

end Interval

/-- Only zeros at the end are moved. -/
theorem Digits.significand_trim_ne_zero {digits : Digits} (nonzero : digits.significand ≠ 0)
    (count : Nat) : (digits.trim count).significand ≠ 0 := by
  induction count generalizing digits with
  | zero => exact nonzero
  | succ count inductionHypothesis =>
      unfold trim
      split
      · next ends =>
          have divided : digits.significand / 10 ≠ 0 := by omega
          exact inductionHypothesis divided
      · exact nonzero

/-- Only zero is shown as zero. -/
theorem significand_shortest_ne_zero {significand : Nat} (positive : significand ≠ 0)
    (power : Int) : (shortest significand power).significand ≠ 0 := by
  unfold shortest
  dsimp only
  split
  · next digits found =>
      have inside := Interval.contains_of_search found
      have above := Interval.low_ofBinary_pos positive power
      exact Digits.significand_trim_ne_zero
        (Interval.significand_ne_zero_of_contains above inside) 20
  · exact positive

end LightList.Decimal
