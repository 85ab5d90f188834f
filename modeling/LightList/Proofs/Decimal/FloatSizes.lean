/-
This file gives finite floats by their sign and their size, which determine all their bits.

The largest float ends below a power of two. A rounded value from there on is packed as an infinity,
and every smaller one is packed and unpacked without change.
-/

import LightList.Proofs.Decimal.FloatBits
import LightList.Proofs.Decimal.RoundingLaws
import Mathlib

namespace LightList.Decimal

open Float.Model Float.Model.UnpackedFloat

namespace IsMantissa

variable {mantissa other : ℕ} {exponent power : ℤ}

/-- A larger exponent would need a leading bit, and that is more than the value. -/
theorem le_of_eq (first : IsMantissa mantissa exponent) (second : IsMantissa other power)
    (same : (mantissa : ℚ) * 2 ^ exponent = other * 2 ^ power) : power ≤ exponent := by
  by_contra above
  have leading : 2 ^ 52 ≤ other := by
    rcases second.leading with lowest | leading
    · have least := first.lowest
      omega
    · exact leading
  have large : (2 : ℚ) ^ (53 + exponent) ≤ other * 2 ^ power :=
    calc
      (2 : ℚ) ^ (53 + exponent) ≤ 2 ^ (52 + power) := zpow_le_zpow_right₀ (by norm_num) (by omega)
      _ = (2 ^ 52 : ℕ) * 2 ^ power := by rw [two_zpow_add]; norm_num
      _ ≤ other * 2 ^ power :=
        mul_le_mul_of_nonneg_right (Nat.cast_le.2 leading) (two_zpow_pos power).le
  exact absurd (large.trans_eq same.symm) (not_le.2 (lt_of_fits first.fits exponent))

/-- Mantissas with a leading bit at their exponent have one value each. -/
theorem unique (first : IsMantissa mantissa exponent) (second : IsMantissa other power)
    (same : (mantissa : ℚ) * 2 ^ exponent = other * 2 ^ power) :
    mantissa = other ∧ exponent = power := by
  have aligned : exponent = power :=
    le_antisymm (second.le_of_eq first same.symm) (first.le_of_eq second same)
  subst aligned
  exact ⟨Nat.cast_inj.1 (mul_right_cancel₀ (two_zpow_pos exponent).ne' same), rfl⟩

/-- A size below the largest power has an exponent that is not too high. -/
theorem exponent_le (isMantissa : IsMantissa mantissa exponent)
    (small : (mantissa : ℚ) * 2 ^ exponent < 2 ^ (1024 : ℤ)) : exponent ≤ 971 := by
  by_contra above
  have leading : 2 ^ 52 ≤ mantissa := by
    rcases isMantissa.leading with lowest | leading
    · omega
    · exact leading
  have large : (2 : ℚ) ^ (1024 : ℤ) ≤ mantissa * 2 ^ exponent :=
    calc
      (2 : ℚ) ^ (1024 : ℤ) ≤ 2 ^ (52 + exponent) := zpow_le_zpow_right₀ (by norm_num) (by omega)
      _ = (2 ^ 52 : ℕ) * 2 ^ exponent := by rw [two_zpow_add]; norm_num
      _ ≤ mantissa * 2 ^ exponent :=
        mul_le_mul_of_nonneg_right (Nat.cast_le.2 leading) (two_zpow_pos exponent).le
  exact absurd small (not_lt.2 large)

end IsMantissa

/-- A sign and a size belong to one float. -/
theorem HasSize.unique {sign : Sign} {size : ℚ} {first second : UnpackedFloat}
    (firstSize : HasSize sign size first) (secondSize : HasSize sign size second) :
    first = second := by
  have positive {mantissa : ℕ} (some : 0 < mantissa) (exponent : ℤ) :
      (mantissa : ℚ) * 2 ^ exponent ≠ 0 :=
    (mul_pos (Nat.cast_pos.2 some) (two_zpow_pos exponent)).ne'
  cases first with
  | infinity _ => exact firstSize.elim
  | notANumber => exact firstSize.elim
  | zero _ =>
      obtain ⟨rfl, rfl⟩ := firstSize
      cases second with
      | infinity _ => exact secondSize.elim
      | notANumber => exact secondSize.elim
      | zero _ =>
          obtain ⟨rfl, _⟩ := secondSize
          rfl
      | finite _ mantissa exponent some => exact (positive some exponent secondSize.2.2.symm).elim
  | finite _ mantissa exponent some =>
      obtain ⟨rfl, isMantissa, rfl⟩ := firstSize
      cases second with
      | infinity _ => exact secondSize.elim
      | notANumber => exact secondSize.elim
      | zero _ => exact (positive some exponent secondSize.2).elim
      | finite _ other power _ =>
          obtain ⟨rfl, isOther, same⟩ := secondSize
          obtain ⟨rfl, rfl⟩ := isMantissa.unique isOther same
          rfl

/-- A float has one sign and one size. -/
theorem HasSize.inj {firstSign secondSign : Sign} {firstSize secondSize : ℚ}
    {value : UnpackedFloat} (first : HasSize firstSign firstSize value)
    (second : HasSize secondSign secondSize value) :
    firstSign = secondSign ∧ firstSize = secondSize := by
  cases value with
  | infinity _ => exact first.elim
  | notANumber => exact first.elim
  | zero _ => exact ⟨first.1.symm.trans second.1, first.2.trans second.2.symm⟩
  | finite _ _ _ _ => exact ⟨first.1.symm.trans second.1, first.2.2.trans second.2.2.symm⟩

section Packing

variable {mantissa biased : ℕ}

/-- The leading bit of a normal float is left out and put back. -/
theorem unpack_normal (sign : Sign) (fits : mantissa < 2 ^ 53) (leading : 2 ^ 52 ≤ mantissa)
    (positive : 0 < biased) (small : biased < 2047) :
    unpack Format.binary64 (packComponents Format.binary64 sign (BitVec.ofNat _ biased)
        (BitVec.ofNat _ mantissa)) =
      .finite sign mantissa ((biased : ℤ) - 1075) (by omega) := by
  obtain ⟨kept, notOnes, notZeros⟩ := biasedBits positive small
  have restored := toNat_restored leading fits
  have bias : ((Format.binary64.exponentBias : ℤ) + Format.binary64.mantissaBitsWithoutImplicit) =
      1075 := rfl
  unfold UnpackedFloat.unpack
  simp only [unpackMantissa_packComponents, unpackExponent_packComponents,
    unpackSign_packComponents, Sign.ofBitVec_toBitVec]
  rw [if_neg notOnes, if_neg notZeros]
  simp only [restored, kept, bias]

/-- Below the normal floats all bits of the mantissa are kept. -/
theorem unpack_subnormal (sign : Sign) (short : mantissa < 2 ^ 52) (nonzero : 0 < mantissa) :
    unpack Format.binary64 (packComponents Format.binary64 sign 0#_ (BitVec.ofNat _ mantissa)) =
      .finite sign mantissa (-1074) nonzero := by
  have notOnes : (0#11) ≠ -1#11 := by decide
  have kept : (BitVec.ofNat 52 mantissa).toNat = mantissa := by
    rw [BitVec.toNat_ofNat]
    omega
  have some : BitVec.ofNat 52 mantissa ≠ 0#52 := by
    intro same
    have value := congrArg BitVec.toNat same
    rw [kept] at value
    exact nonzero.ne' value
  unfold UnpackedFloat.unpack
  simp only [unpackMantissa_packComponents, unpackExponent_packComponents,
    unpackSign_packComponents, Sign.ofBitVec_toBitVec, if_neg notOnes, if_true, dif_neg some, kept]
  rfl

variable {sign : Sign} {size : ℚ} {value : UnpackedFloat}

/-- A float that is not too large keeps its parts when it is packed. -/
theorem unpack_pack (hasSize : HasSize sign size value) (small : size < 2 ^ (1024 : ℤ)) :
    (Float.Model.pack value).unpack = value := by
  change unpack Format.binary64 (UnpackedFloat.pack Format.binary64 value) = value
  cases value with
  | infinity _ => exact hasSize.elim
  | notANumber => exact hasSize.elim
  | zero sign => exact unpack_packedZero
  | finite sign mantissa exponent nonzero =>
      obtain ⟨rfl, isMantissa, rfl⟩ := hasSize
      have highest := isMantissa.exponent_le small
      have lowest := isMantissa.lowest
      have biased : (exponent + Format.binary64.exponentBias +
          Format.binary64.mantissaBitsWithoutImplicit).toNat = (exponent + 1075).toNat := by
        change (exponent + 1023 + 52).toNat = _
        omega
      have inRange : ¬ 2 ^ Format.binary64.exponentBits ≤ (exponent + 1075).toNat + 1 := by
        change ¬ 2 ^ 11 ≤ _
        omega
      unfold UnpackedFloat.pack
      simp only [biased, if_neg inRange]
      have bits := Nat.log2_lt nonzero.ne' |>.2 isMantissa.fits
      split
      · next normal =>
          have leading : 52 ≤ mantissa.log2 := by
            change mantissa.log2 + 1 = 53 at normal
            omega
          rw [unpack_normal sign isMantissa.fits ((Nat.le_log2 nonzero.ne').1 leading) (by omega)
            (by omega)]
          congr 1
          omega
      · next subnormal =>
          have short : mantissa < 2 ^ 52 := by
            rw [← Nat.log2_lt nonzero.ne']
            change ¬ mantissa.log2 + 1 = 53 at subnormal
            omega
          rw [unpack_subnormal sign short nonzero]
          congr 1
          rcases isMantissa.leading with lowest | leading
          · exact lowest.symm
          · omega

/-- A float that is too large is packed as an infinity. -/
theorem unpack_pack_of_large (hasSize : HasSize sign size value)
    (large : 2 ^ (1024 : ℤ) ≤ size) : (Float.Model.pack value).unpack = .infinity sign := by
  change unpack Format.binary64 (UnpackedFloat.pack Format.binary64 value) = _
  have infinite (sign : Sign) :
      unpack Format.binary64 (packedInfinity Format.binary64 sign) = .infinity sign := by
    cases sign <;> rfl
  cases value with
  | infinity _ => exact hasSize.elim
  | notANumber => exact hasSize.elim
  | zero _ =>
      rw [hasSize.2] at large
      exact absurd large (not_le.2 (two_zpow_pos 1024))
  | finite sign mantissa exponent nonzero =>
      obtain ⟨rfl, isMantissa, rfl⟩ := hasSize
      have beyond : (1024 : ℤ) < 53 + exponent :=
        (zpow_lt_zpow_iff_right₀ (by norm_num : (1 : ℚ) < 2)).1
          (large.trans_lt (lt_of_fits isMantissa.fits exponent))
      have biased : 2 ^ Format.binary64.exponentBits ≤ (exponent + Format.binary64.exponentBias +
          Format.binary64.mantissaBitsWithoutImplicit).toNat + 1 := by
        change 2 ^ 11 ≤ (exponent + 1023 + 52).toNat + 1
        omega
      unfold UnpackedFloat.pack
      simp only [if_pos biased]
      exact infinite sign

end Packing

/-- The float is finite, and this is its sign and its size. -/
structure IsSized (sign : Sign) (size : ℚ) (value : Float) : Prop where
  hasSize : HasSize sign size value.toModel.unpack
  small : size < 2 ^ (1024 : ℤ)

/-- Floats with the same parts are the same. -/
theorem eq_of_unpack {first second : Float}
    (same : first.toModel.unpack = second.toModel.unpack) : first = second := by
  obtain ⟨⟨firstBits, firstValid⟩⟩ := first
  obtain ⟨⟨secondBits, secondValid⟩⟩ := second
  have bits := (unpack_inj_of_valid firstValid secondValid).1 same
  have words : firstBits = secondBits := UInt64.eq_of_toBitVec_eq bits
  subst words
  rfl

/-- The sign and the size of a float decide it. -/
theorem IsSized.unique {sign : Sign} {size : ℚ} {first second : Float}
    (firstSized : IsSized sign size first) (secondSized : IsSized sign size second) :
    first = second := eq_of_unpack (firstSized.hasSize.unique secondSized.hasSize)

/-- A float that has a size is finite. -/
theorem IsSized.isFinite {sign : Sign} {size : ℚ} {value : Float}
    (sized : IsSized sign size value) : value.isFinite = true := by
  have hasSize := sized.hasSize
  change value.toModel.unpack.isFinite = true
  cases unpacked : value.toModel.unpack with
  | infinity _ =>
      rw [unpacked] at hasSize
      exact hasSize.elim
  | notANumber =>
      rw [unpacked] at hasSize
      exact hasSize.elim
  | zero _ => rfl
  | finite _ _ _ _ => rfl

/-- A finite float has its sign and its size. -/
theorem isSized_size {value : Float} (finite : value.isFinite = true) :
    IsSized (signOf value) (size value) value :=
  ⟨hasSize_unpack finite, lt_of_highest (isMantissa_binaryParts _).fits
    (power_le_of_isFinite finite)⟩

/-- A float has no other sign and no other size. -/
theorem IsSized.eq_size {sign : Sign} {size : ℚ} {value : Float} (sized : IsSized sign size value) :
    sign = signOf value ∧ size = Decimal.size value :=
  sized.hasSize.inj (hasSize_unpack sized.isFinite)

end LightList.Decimal
