/-
This file says which float is read from the text of a float.

The digits of the text are rounded to the float, but the reader rounds the significand, the power of
ten and their product one after the other. The float comes back where the first two are exact, and
otherwise what comes back differs in the last bits only.
-/

import LightList.Proofs.AcceptedFloats
import LightList.Proofs.Decimal.ScaledRounding
import LightList.Proofs.Decimal.ShortestBetween

namespace LightList

namespace Decimal

open Float.Model Float.Model.UnpackedFloat

/-- A minus in front changes the sign alone. -/
theorem IsSized.signed {size : ℚ} {value : Float} (sized : IsSized .positive size value)
    (negative : Bool) :
    IsSized (if negative then .negative else .positive) size
      (Json.Reader.signed negative value) := by
  cases negative with
  | false => exact sized
  | true => exact sized.neg

section Shown

variable {value : Float}

/-- The text shows digits that are rounded to the float. -/
theorem roundsTo_shownDigits (finite : value.isFinite = true) {rounded : ℚ}
    (rounds : RoundsTo (shownDigits value).value rounded) : rounded = size value := by
  have isMantissa := isMantissa_binaryParts (magnitudeBits value)
  unfold shownDigits at rounds
  unfold size
  dsimp only at rounds ⊢
  split at rounds
  · next isZero =>
      have none : (⟨0, -1⟩ : Digits).value = 0 := by simp [Digits.value]
      rw [none] at rounds
      rw [rounds.eq_of_isFloatSize ⟨0, -1074, isMantissa_zero, by simp⟩, isZero]
      simp
  · next nonzero =>
      rw [Digits.value_shown] at rounds
      exact rounds.eq_of_isBetween isMantissa
        ((isBinary_binaryParts finite nonzero).isBetween_shortest isMantissa)

/-- The shown digits are off by at most one unit of both kinds. -/
theorem isClose_shownDigits (finite : value.isFinite = true) :
    IsClose 1 1 (size value) (shownDigits value).value := by
  have isMantissa := isMantissa_binaryParts (magnitudeBits value)
  unfold shownDigits size
  dsimp only
  split
  · next isZero =>
      have none : (⟨0, -1⟩ : Digits).value = 0 := by simp [Digits.value]
      rw [none, isZero, Nat.cast_zero, zero_mul]
      exact (isClose_refl 0).mono le_rfl zero_le_one zero_le_one
  · next nonzero =>
      rw [Digits.value_shown]
      exact ((isBinary_binaryParts finite nonzero).isBetween_shortest isMantissa).isClose isMantissa

/-- Zero is shown as one zero behind the point. -/
theorem shownDigits_of_zero (isZero : (shownDigits value).significand = 0) :
    shownDigits value = ⟨0, -1⟩ := by
  unfold shownDigits at isZero ⊢
  dsimp only at isZero ⊢
  split
  · rfl
  · next nonzero =>
      rw [if_neg nonzero] at isZero
      have some := significand_shortest_ne_zero nonzero (binaryParts (magnitudeBits value)).2
      exact (Nat.mul_ne_zero some (Nat.pow_pos (by decide)).ne' isZero).elim

/-- The significand that is shown fits 64 bits. -/
theorem toNat_shownDigits (finite : value.isFinite = true) :
    (shownDigits value).significand.toUInt64.toNat = (shownDigits value).significand := by
  suffices few : (shownDigits value).significand ≤ 10 ^ 17 from
    UInt64.toNat_ofNat_of_lt' (few.trans_lt (by decide))
  unfold shownDigits
  dsimp only
  split
  · exact Nat.zero_le _
  · next nonzero => exact (isBinary_binaryParts finite nonzero).significand_shown_le

/-- The exponent that is shown is small. -/
theorem exponent_shownDigits (finite : value.isFinite = true) :
    (shownDigits value).exponent.natAbs ≤ 400 := by
  unfold shownDigits
  dsimp only
  split
  · exact (by decide : (1 : ℕ) ≤ 400)
  · next nonzero =>
      have range := (isBinary_binaryParts finite nonzero).exponent_shortest
      unfold Digits.shown Digits.shift
      dsimp only
      split <;> omega

end Shown

/-- The digits of the text are a float, and so is their power of ten. -/
structure HoldsDigits (value : Float) : Prop where
  significand : IsFloatSize (shownDigits value).significand
  exponent : (shownDigits value).exponent.natAbs ≤ 22

/-- Digits of 53 bits are a float. -/
theorem holdsDigits_of_lt {value : Float} (fits : (shownDigits value).significand < 2 ^ 53)
    (small : (shownDigits value).exponent.natAbs ≤ 22) : HoldsDigits value :=
  ⟨isFloatSize_of_lt fits, small⟩

/-- What is read has the same sign and nearly the same size. -/
structure IsReread (value read : Float) : Prop where
  finite : read.isFinite = true
  sign : isNegative read = isNegative value
  near : |size read - size value| ≤ 2 ^ (-50 : ℤ) * size value + 2 ^ (-1073 : ℤ)
  exact : HoldsDigits value → read = value

section Reading

variable {value : Float}

/-- A float whose digits are held exactly is read again as itself. -/
theorem reread?_of_holdsDigits (finite : value.isFinite = true) (holds : HoldsDigits value) :
    reread? value = some value := by
  obtain ⟨magnitude, scaled, found⟩ := exists_reread_shown finite
  have whole := holds.significand
  rw [← toNat_shownDigits finite] at whole
  obtain ⟨rounded, rounds, sized⟩ := roundsTo_of_scaled? whole holds.exponent scaled
  rw [toNat_shownDigits finite] at rounds
  rw [roundsTo_shownDigits finite rounds] at sized
  rw [found]
  exact congrArg some ((sized.signed (isNegative value)).unique (isSized_size finite))

/-- The digits of zero are held exactly. -/
theorem holdsDigits_of_zero (isZero : (shownDigits value).significand = 0) : HoldsDigits value := by
  constructor
  · rw [isZero]
    exact ⟨0, -1074, isMantissa_zero, by simp⟩
  · rw [shownDigits_of_zero isZero]
    decide

theorem isNegative_eq_of_signOf {first second : Float} (same : signOf first = signOf second) :
    isNegative first = isNegative second := by
  unfold signOf at same
  cases isFirst : isNegative first <;> cases isSecond : isNegative second <;>
    simp [isFirst, isSecond] at same ⊢

/-- A few units in the last bit are this part of the size. -/
theorem bound_eq (size : ℚ) : 8 * (unitRoundoff * size) + 4 * underflowError =
    2 ^ (-50 : ℤ) * size + 2 ^ (-1073 : ℤ) := by
  have eight : 8 * unitRoundoff = 2 ^ (-50 : ℤ) := by
    have power : (8 : ℚ) = 2 ^ (3 : ℤ) := by norm_num
    rw [unitRoundoff, power, ← two_zpow_add]
    rfl
  have four : 4 * underflowError = 2 ^ (-1073 : ℤ) := by
    have power : (4 : ℚ) = 2 ^ (2 : ℤ) := by norm_num
    rw [underflowError, power, ← two_zpow_add]
    rfl
  rw [← mul_assoc, eight, four]

theorem nonneg_size (value : Float) : 0 ≤ size value := size_nonneg _ _

/-- Every finite float is read again, as itself or nearly so. -/
theorem exists_isReread (finite : value.isFinite = true) :
    ∃ read, reread? value = some read ∧ IsReread value read := by
  by_cases holds : HoldsDigits value
  · refine ⟨value, reread?_of_holdsDigits finite holds, finite, rfl, ?_, fun _ => rfl⟩
    rw [sub_self, abs_zero]
    exact add_nonneg (mul_nonneg (two_zpow_pos _).le (nonneg_size value)) (two_zpow_pos _).le
  · obtain ⟨magnitude, scaled, found⟩ := exists_reread_shown finite
    have nonzero : (shownDigits value).significand.toUInt64 ≠ 0 := by
      intro isZero
      have none := toNat_shownDigits finite
      rw [isZero] at none
      exact holds (holdsDigits_of_zero none.symm)
    obtain ⟨rounded, close, sized⟩ :=
      isClose_of_scaled? nonzero (exponent_shownDigits finite) scaled
    rw [toNat_shownDigits finite] at close
    have signed := sized.signed (isNegative value)
    obtain ⟨sign, same⟩ := signed.eq_size
    have both := (isClose_shownDigits finite).trans close (nonneg_size value) zero_le_one
      (by norm_num) (by norm_num) (by norm_num)
    have bounded : IsClose 8 4 (size value) rounded :=
      both.mono (nonneg_size value) (by norm_num) (by norm_num)
    rw [IsClose, bound_eq, same] at bounded
    exact ⟨_, found, signed.isFinite, (isNegative_eq_of_signOf sign).symm, bounded,
      fun exact => (holds exact).elim⟩

end Reading

end Decimal

end LightList
