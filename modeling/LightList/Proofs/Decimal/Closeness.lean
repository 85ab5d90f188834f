/-
This file adds up how far several roundings in a row move a value.

The error has a part that is relative to the value and a part in units of the smallest floats. A step
adds its own parts to both, with a little more for what the steps before it have moved.
-/

import LightList.Proofs.Decimal.RoundingLaws

namespace LightList.Decimal

/-- Half a gap of the floats, relative to the smallest of them with that gap. -/
def unitRoundoff : ℚ := 2 ^ (-53 : ℤ)

/-- Half a gap of the smallest floats. -/
def underflowError : ℚ := 2 ^ (-1075 : ℤ)

theorem unitRoundoff_pos : 0 < unitRoundoff := two_zpow_pos _

theorem underflowError_pos : 0 < underflowError := two_zpow_pos _

/-- The value is moved by at most this many units of both kinds. -/
def IsClose (relative absolute exact moved : ℚ) : Prop :=
  |moved - exact| ≤ relative * (unitRoundoff * exact) + absolute * underflowError

/-- Rounding moves a value by at most one unit of both kinds. -/
theorem RoundsTo.isClose {size rounded : ℚ} (rounds : RoundsTo size rounded) (nonneg : 0 ≤ size) :
    IsClose 1 1 size rounded := by
  obtain ⟨power, grid, moved⟩ := rounds.exists_gap
  have relative : 0 ≤ unitRoundoff * size := mul_nonneg unitRoundoff_pos.le nonneg
  have absolute := underflowError_pos
  rw [IsClose, one_mul, one_mul]
  rcases grid.halfGap_le with small | lowest
  · exact moved.trans (small.trans (le_add_of_nonneg_right absolute.le))
  · rw [lowest] at moved
    exact moved.trans (le_add_of_nonneg_left relative)

/-- Values that are not among the smallest are only moved relative to themselves. -/
theorem RoundsTo.isClose_of_normal {size rounded : ℚ} (rounds : RoundsTo size rounded)
    (normal : 2 ^ (-1022 : ℤ) ≤ size) : IsClose 1 0 size rounded := by
  obtain ⟨power, grid, moved⟩ := rounds.exists_gap
  rw [IsClose, one_mul, zero_mul, add_zero]
  rcases grid.halfGap_le with small | lowest
  · exact moved.trans small
  · rw [lowest] at moved
    have least := mul_le_mul_of_nonneg_left normal unitRoundoff_pos.le
    refine moved.trans (le_trans (le_of_eq ?_) least)
    rw [unitRoundoff, ← two_zpow_add]
    rfl

/-- Whatever is rounded to a float is as near to it. -/
theorem IsBetween.isClose {mantissa : ℕ} {exponent : ℤ} {size : ℚ}
    (between : IsBetween mantissa exponent size) (isMantissa : IsMantissa mantissa exponent) :
    IsClose 1 1 (mantissa * 2 ^ exponent) size := by
  have scale := two_zpow_pos exponent
  have low := between.low
  have gap := mul_le_mul_of_nonneg_right (gapBelow_le mantissa exponent) scale.le
  have moved : |size - mantissa * 2 ^ exponent| ≤ 1 / 2 * 2 ^ exponent :=
    abs_le.2 ⟨by linarith, by linarith [between.high]⟩
  have relative : 0 ≤ unitRoundoff * (mantissa * 2 ^ exponent) :=
    mul_nonneg unitRoundoff_pos.le (size_nonneg mantissa exponent)
  have absolute := underflowError_pos
  rw [IsClose, one_mul, one_mul]
  rcases isMantissa.leading with lowest | leading
  · have least : 1 / 2 * 2 ^ exponent = underflowError := by
      have half : (1 / 2 : ℚ) = 2 ^ (-1 : ℤ) := by norm_num
      rw [lowest, underflowError, half, ← two_zpow_add]
      rfl
    rw [least] at moved
    exact moved.trans (le_add_of_nonneg_left relative)
  · have large : ((2 ^ 52 : ℕ) : ℚ) ≤ mantissa := Nat.cast_le.2 leading
    have small : 1 / 2 * 2 ^ exponent ≤ unitRoundoff * (mantissa * 2 ^ exponent) :=
      calc
        (1 / 2 * 2 ^ exponent : ℚ) = unitRoundoff * ((2 ^ 52 : ℕ) * 2 ^ exponent) := by
          rw [unitRoundoff]
          norm_num
          ring
        _ ≤ unitRoundoff * (mantissa * 2 ^ exponent) :=
          mul_le_mul_of_nonneg_left (mul_le_mul_of_nonneg_right large scale.le)
            unitRoundoff_pos.le
    exact moved.trans (small.trans (le_add_of_nonneg_right absolute.le))

/-- Nothing is moved. -/
theorem isClose_refl (size : ℚ) : IsClose 0 0 size size := by
  rw [IsClose, sub_self, abs_zero, zero_mul, zero_mul, add_zero]

namespace IsClose

variable {relative absolute further more exact moved last : ℚ}

/-- A close value is not much larger than the exact one. -/
theorem upper (close : IsClose relative absolute exact moved) :
    moved ≤ exact + (relative * (unitRoundoff * exact) + absolute * underflowError) := by
  linarith [(abs_le.1 close).2]

theorem mono (close : IsClose relative absolute exact moved) (nonneg : 0 ≤ exact)
    (larger : relative ≤ further) (most : absolute ≤ more) : IsClose further more exact moved :=
  le_trans close (add_le_add
    (mul_le_mul_of_nonneg_right larger (mul_nonneg unitRoundoff_pos.le nonneg))
    (mul_le_mul_of_nonneg_right most underflowError_pos.le))

/-- A few units of a few units are a small part of one. -/
theorem mul_unitRoundoff_le (small : relative ≤ 8) (few : further ≤ 8) (nonneg : 0 ≤ further) :
    relative * (further * unitRoundoff) ≤ 1 / 8 := by
  have product : relative * further ≤ 8 * 8 := mul_le_mul small few nonneg (by norm_num)
  calc
    relative * (further * unitRoundoff) = relative * further * unitRoundoff := by ring
    _ ≤ 8 * 8 * unitRoundoff := mul_le_mul_of_nonneg_right product unitRoundoff_pos.le
    _ ≤ 1 / 8 := by
      rw [unitRoundoff]
      norm_num

/-- One step after the other moves by both, and a little more. -/
theorem trans (first : IsClose relative absolute exact moved)
    (second : IsClose further more moved last) (nonneg : 0 ≤ exact)
    (absoluteNonneg : 0 ≤ absolute) (furtherNonneg : 0 ≤ further) (small : relative ≤ 8)
    (few : further ≤ 8) :
    IsClose (relative + further + 1 / 8) (absolute + more + absolute / 8) exact last := by
  have scale : 0 ≤ unitRoundoff * exact := mul_nonneg unitRoundoff_pos.le nonneg
  have least := underflowError_pos
  have raised := mul_le_mul_of_nonneg_left first.upper
    (mul_nonneg furtherNonneg unitRoundoff_pos.le)
  have cross := mul_le_mul_of_nonneg_right
    (mul_unitRoundoff_le small few furtherNonneg) scale
  have rest := mul_le_mul_of_nonneg_right
    (mul_unitRoundoff_le (by norm_num : (1 : ℚ) ≤ 8) few furtherNonneg)
    (mul_nonneg absoluteNonneg least.le)
  have moves := abs_sub_le last moved exact
  unfold IsClose at first second ⊢
  linarith only [first, second, raised, cross, rest, moves]

section Scaling

variable {factor power : ℚ}

/-- A factor that is rounded itself adds one step. -/
theorem mul (close : IsClose relative 0 exact moved) (rounded : IsClose 1 0 factor power)
    (nonneg : 0 ≤ exact) (positive : 0 ≤ factor) (relativeNonneg : 0 ≤ relative)
    (small : relative ≤ 8) : IsClose (relative + 1 + 1 / 8) 0 (exact * factor) (moved * power) := by
  have unit := unitRoundoff_pos.le
  have first : |moved - exact| ≤ relative * (unitRoundoff * exact) := by
    simpa [IsClose] using close
  have second : |power - factor| ≤ unitRoundoff * factor := by
    simpa [IsClose] using rounded
  have size : |power| ≤ factor + unitRoundoff * factor := by
    have moves := abs_sub_le power factor 0
    rw [sub_zero, sub_zero, abs_of_nonneg positive] at moves
    linarith only [moves, second]
  have parts : |moved * power - exact * factor| ≤
      |moved - exact| * |power| + exact * |power - factor| := by
    have split : moved * power - exact * factor =
        (moved - exact) * power + exact * (power - factor) := by ring
    rw [split, ← abs_mul, ← abs_of_nonneg nonneg, ← abs_mul, abs_of_nonneg nonneg]
    exact abs_add_le _ _
  have cross := mul_le_mul_of_nonneg_right
    (mul_unitRoundoff_le small (by norm_num : (1 : ℚ) ≤ 8) zero_le_one)
    (mul_nonneg unit (mul_nonneg nonneg positive))
  have front := mul_le_mul first size (abs_nonneg power)
    (mul_nonneg relativeNonneg (mul_nonneg unit nonneg))
  have back := mul_le_mul_of_nonneg_left second nonneg
  rw [IsClose, zero_mul, add_zero]
  linarith only [parts, front, back, cross]

/-- So does a divisor, and the smallest floats are divided by one at least. -/
theorem div (close : IsClose relative absolute exact moved) (rounded : IsClose 1 0 factor power)
    (nonneg : 0 ≤ exact) (large : 1 ≤ power) (positive : 0 < factor) (absoluteNonneg : 0 ≤ absolute)
    (relativeNonneg : 0 ≤ relative) (small : relative ≤ 7) :
    IsClose (relative + 1 + 1 / 8) absolute (exact / factor) (moved / power) := by
  have unit := unitRoundoff_pos.le
  have divisor : 0 < power := zero_lt_one.trans_le large
  have second : |factor - power| ≤ unitRoundoff * factor := by
    rw [abs_sub_comm]
    simpa [IsClose] using rounded
  have covers : factor ≤ (1 + 2 * unitRoundoff) * power := by
    have tiny : unitRoundoff ≤ 1 / 2 := by
      rw [unitRoundoff]
      norm_num
    have product := mul_le_mul_of_nonneg_right tiny (mul_nonneg unit positive.le)
    have scaled := mul_le_mul_of_nonneg_left (abs_le.1 second).2
      (by linarith : 0 ≤ 1 + 2 * unitRoundoff)
    linarith only [product, scaled]
  obtain ⟨quotient, rfl⟩ : ∃ quotient, exact = quotient * factor :=
    ⟨exact / factor, (div_mul_cancel₀ exact positive.ne').symm⟩
  obtain ⟨result, rfl⟩ : ∃ result, moved = result * power :=
    ⟨moved / power, (div_mul_cancel₀ moved divisor.ne').symm⟩
  have quotientNonneg : 0 ≤ quotient := nonneg_of_mul_nonneg_left nonneg positive
  rw [mul_div_cancel_right₀ _ positive.ne', mul_div_cancel_right₀ _ divisor.ne', IsClose]
  -- The comparison is made with both quotients multiplied by the divisor again.
  apply le_of_mul_le_mul_right _ divisor
  have parts : |result - quotient| * power ≤
      |result * power - quotient * factor| + quotient * |factor - power| := by
    have split : (result - quotient) * power =
        (result * power - quotient * factor) + quotient * (factor - power) := by ring
    rw [← abs_of_pos divisor, ← abs_mul, abs_of_pos divisor, split]
    apply (abs_add_le _ _).trans
    rw [abs_mul, abs_of_nonneg quotientNonneg]
  have scale : 0 ≤ unitRoundoff * quotient := mul_nonneg unit quotientNonneg
  have front := mul_le_mul_of_nonneg_left covers (mul_nonneg relativeNonneg scale)
  have back := mul_le_mul_of_nonneg_left second quotientNonneg
  have further := mul_le_mul_of_nonneg_left covers scale
  have cross := mul_le_mul_of_nonneg_right
    (mul_unitRoundoff_le (by linarith : relative + 1 ≤ 8) (by norm_num : (2 : ℚ) ≤ 8) zero_le_two)
    (mul_nonneg scale divisor.le)
  have least := mul_le_mul_of_nonneg_left large
    (mul_nonneg absoluteNonneg underflowError_pos.le)
  unfold IsClose at close
  linarith only [close, parts, front, back, further, cross, least]

end Scaling

end IsClose

end LightList.Decimal
