/-
This file reads the sign and the size of a float off its bits.

The bits of the exponent tell the finite floats from the others, and they tell whether the leading bit
of the mantissa is left out.
-/

import LightList.Decimal.FloatText
import LightList.Proofs.Decimal.NearestEven

namespace LightList.Decimal

open Float.Model Float.Model.UnpackedFloat

/-- The sign is the first bit. -/
def isNegative (value : Float) : Bool := value.toBits.toNat / Nat.pow 2 63 = 1

/-- These are the bits behind the sign. -/
def magnitudeBits (value : Float) : ℕ := value.toBits.toNat % Nat.pow 2 63

def signOf (value : Float) : Sign := if isNegative value then .negative else .positive

/-- This is the size of a finite float, which is exact and has no sign. -/
def size (value : Float) : ℚ :=
  let parts := binaryParts (magnitudeBits value)
  parts.1 * 2 ^ parts.2

section Bits

variable (bits : BitVec 64)

/-- The exponent field stands above the 52 bits of the mantissa. -/
theorem toNat_unpackExponent : (@unpackExponent Format.binary64 bits).toNat =
    bits.toNat / Nat.pow 2 52 % Nat.pow 2 11 := by
  rw [unpackExponent, BitVec.toNat_cast, BitVec.extractLsb_toNat, Nat.shiftRight_eq_div_pow]
  rfl

/-- The mantissa field is the lowest 52 bits. -/
theorem toNat_unpackMantissa : (@unpackMantissa Format.binary64 bits).toNat =
    bits.toNat % Nat.pow 2 52 := by
  rw [unpackMantissa, BitVec.toNat_cast, BitVec.extractLsb_toNat, Nat.shiftRight_zero]
  rfl

/-- The topmost bit is the sign. -/
theorem ofBitVec_unpackSign : Sign.ofBitVec (@unpackSign Format.binary64 bits) =
    if bits.toNat / Nat.pow 2 63 = 1 then .negative else .positive := by
  have first : (@unpackSign Format.binary64 bits).toNat = bits.toNat / Nat.pow 2 63 := by
    delta unpackSign
    rw [BitVec.toNat_cast, BitVec.extractLsb_toNat, Nat.shiftRight_eq_div_pow]
    apply Nat.mod_eq_of_lt
    exact (Nat.div_lt_iff_lt_mul (by decide)).2 bits.isLt
  by_cases negative : bits.toNat / Nat.pow 2 63 = 1
  · have one : @unpackSign Format.binary64 bits = 1#1 :=
      BitVec.eq_of_toNat_eq (first.trans negative)
    rw [one, if_pos negative]
    rfl
  · have none : bits.toNat / Nat.pow 2 63 = 0 := by
      have few : bits.toNat / Nat.pow 2 63 < 2 := (Nat.div_lt_iff_lt_mul (by decide)).2 bits.isLt
      omega
    have zero : @unpackSign Format.binary64 bits = 0#1 :=
      BitVec.eq_of_toNat_eq (first.trans none)
    rw [zero, if_neg negative]
    rfl

end Bits

/-- Infinities and values that are no number have all exponent bits set. -/
theorem exponentBits_ne_of_isFinite {value : Float} (finite : value.isFinite = true) :
    value.toBits.toNat / Nat.pow 2 52 % Nat.pow 2 11 ≠ 2047 := by
  intro allSet
  have exponent : @unpackExponent Format.binary64 value.toBits.toBitVec = -1#11 :=
    BitVec.eq_of_toNat_eq ((toNat_unpackExponent _).trans allSet)
  change (UnpackedFloat.unpack Format.binary64 value.toBits.toBitVec).isFinite = true at finite
  unfold UnpackedFloat.unpack at finite
  dsimp only at finite
  rw [if_pos exponent] at finite
  split at finite <;> cases finite

/-- Taking the sign off leaves the exponent field. -/
theorem exponentBits_magnitudeBits (value : Float) :
    magnitudeBits value / Nat.pow 2 52 % Nat.pow 2 11 =
      value.toBits.toNat / Nat.pow 2 52 % Nat.pow 2 11 := by
  have fraction : Nat.pow 2 52 = 4503599627370496 := rfl
  have exponent : Nat.pow 2 11 = 2048 := rfl
  have sign : Nat.pow 2 63 = 9223372036854775808 := rfl
  rw [magnitudeBits, fraction, exponent, sign]
  omega

/-- Taking the sign off leaves the mantissa field. -/
theorem fraction_magnitudeBits (value : Float) :
    magnitudeBits value % Nat.pow 2 52 = value.toBits.toNat % Nat.pow 2 52 := by
  have fraction : Nat.pow 2 52 = 4503599627370496 := rfl
  have sign : Nat.pow 2 63 = 9223372036854775808 := rfl
  rw [magnitudeBits, fraction, sign]
  omega

/-- The parts of the bits are a mantissa and an exponent of the format. -/
theorem isMantissa_binaryParts (bits : ℕ) : IsMantissa (binaryParts bits).1 (binaryParts bits).2 := by
  have fraction : bits % Nat.pow 2 52 < 2 ^ 52 := Nat.mod_lt _ (by decide)
  unfold binaryParts
  dsimp only
  split
  · exact ⟨by omega, le_refl _, .inl rfl⟩
  · have power : Nat.pow 2 52 = 2 ^ 52 := rfl
    exact ⟨by omega, by omega, .inr (by omega)⟩

/-- The exponent of a finite float is not above the highest one. -/
theorem power_le_of_isFinite {value : Float} (finite : value.isFinite = true) :
    (binaryParts (magnitudeBits value)).2 ≤ 971 := by
  have exponentBits := exponentBits_ne_of_isFinite finite
  have width : Nat.pow 2 11 = 2048 := rfl
  rw [← exponentBits_magnitudeBits, width] at exponentBits
  unfold binaryParts
  dsimp only
  rw [width]
  split
  · exact (by decide : (-1074 : ℤ) ≤ 971)
  · change ((magnitudeBits value / Nat.pow 2 52 % 2048 : ℕ) : ℤ) - 1075 ≤ 971
    omega

/-- A finite float has the size that its bits say. -/
theorem hasSize_unpack {value : Float} (finite : value.isFinite = true) :
    HasSize (signOf value) (size value) value.toModel.unpack := by
  have isMantissa := isMantissa_binaryParts (magnitudeBits value)
  have notAll := exponentBits_ne_of_isFinite finite
  have sign : Sign.ofBitVec (@unpackSign Format.binary64 value.toBits.toBitVec) = signOf value := by
    rw [ofBitVec_unpackSign, signOf, isNegative]
    simp only [decide_eq_true_eq]
    rfl
  have bias : ((Format.binary64.exponentBias : ℤ) + Format.binary64.mantissaBitsWithoutImplicit) =
      1075 := rfl
  change HasSize _ _ (unpack Format.binary64 value.toBits.toBitVec)
  have exponentBits := toNat_unpackExponent value.toBits.toBitVec
  have fraction := toNat_unpackMantissa value.toBits.toBitVec
  have word : value.toBits.toBitVec.toNat = value.toBits.toNat := rfl
  rw [word, ← exponentBits_magnitudeBits] at exponentBits
  rw [word, ← fraction_magnitudeBits] at fraction
  rw [← exponentBits_magnitudeBits] at notAll
  unfold UnpackedFloat.unpack size
  unfold binaryParts at isMantissa ⊢
  dsimp only at isMantissa ⊢
  rw [bias, sign]
  rw [← exponentBits, ← fraction] at isMantissa ⊢
  rw [← exponentBits] at notAll
  rw [if_neg fun all => notAll (congrArg BitVec.toNat all)]
  by_cases isZeros : (@unpackExponent Format.binary64 value.toBits.toBitVec).toNat = 0
  · rw [if_pos isZeros] at isMantissa ⊢
    rw [if_pos (BitVec.eq_of_toNat_eq isZeros)]
    by_cases none : @unpackMantissa Format.binary64 value.toBits.toBitVec = 0#_
    · have isZero := congrArg BitVec.toNat none
      change _ = 0 at isZero
      rw [dif_pos none, isZero, Nat.cast_zero, zero_mul]
      exact ⟨rfl, rfl⟩
    · have lowest : ((@unpackExponent Format.binary64 value.toBits.toBitVec).toNat : ℤ) - 1075 +
          1 = -1074 := by
        rw [isZeros]
        rfl
      rw [dif_neg none]
      refine ⟨rfl, ?_⟩
      rw [lowest]
      exact ⟨isMantissa, rfl⟩
  · rw [if_neg isZeros] at isMantissa ⊢
    rw [if_neg fun none => isZeros (congrArg BitVec.toNat none)]
    have restored := toNat_implicitBit (@unpackMantissa Format.binary64 value.toBits.toBitVec)
    refine ⟨rfl, ?_⟩
    rw [restored]
    exact ⟨isMantissa, rfl⟩

end LightList.Decimal
