/-
This file bounds the size of rounded floats.

Rounding never passes a value that the format holds exactly. So a bound with few bits on the exact
result is a bound on the rounded one, and a product below the largest float is no infinity.
-/

import Mathlib.Algebra.Order.Field.Power
import Mathlib.Data.Rat.Cast.Order
import Mathlib.Tactic.Positivity
import Mathlib.Tactic.NormNum
import Mathlib.Tactic.Ring

namespace LightList.Decimal

open Float.Model Float.Model.UnpackedFloat

/-- The exponent is one of the format, and it is the lowest one if the leading bit is missing. -/
structure IsCanonical (mantissa : ℕ) (exponent : ℤ) : Prop where
  leading : 52 ≤ mantissa.log2 ∨ exponent = -1074
  lowest : -1074 ≤ exponent
  highest : exponent ≤ 971

/-- The float is finite, its bits are those of the format, and its size is within the limit. -/
def IsWithin (limit : ℚ) : UnpackedFloat → Prop
  | .zero _ => 0 ≤ limit
  | .finite _ mantissa exponent _ =>
      IsCanonical mantissa exponent ∧ (mantissa : ℚ) * 2 ^ exponent ≤ limit
  | _ => False

theorem IsWithin.mono {limit larger : ℚ} (le : limit ≤ larger) {value : UnpackedFloat}
    (within : IsWithin limit value) : IsWithin larger value := by
  cases value with
  | infinity sign => exact within.elim
  | notANumber => exact within.elim
  | zero sign => exact le_trans within le
  | finite sign mantissa exponent positive => exact ⟨within.1, within.2.trans le⟩

theorem IsWithin.isFinite {limit : ℚ} {value : UnpackedFloat} (within : IsWithin limit value) :
    value.isFinite = true := by
  cases value with
  | infinity sign => exact within.elim
  | notANumber => exact within.elim
  | zero sign => rfl
  | finite sign mantissa exponent positive => rfl

section Exponents

theorem two_zpow_pos (exponent : ℤ) : (0 : ℚ) < 2 ^ exponent := zpow_pos (by norm_num) exponent

theorem two_zpow_add (first second : ℤ) : (2 : ℚ) ^ (first + second) = 2 ^ first * 2 ^ second :=
  zpow_add₀ (by norm_num) first second

/-- The value of a mantissa at an exponent is not negative. -/
theorem size_nonneg (mantissa : ℕ) (exponent : ℤ) : (0 : ℚ) ≤ mantissa * 2 ^ exponent :=
  mul_nonneg (Nat.cast_nonneg mantissa) (two_zpow_pos exponent).le

/-- The leading bit of a mantissa is no larger than the value. -/
theorem two_zpow_log2_le {mantissa : ℕ} (nonzero : mantissa ≠ 0) (exponent : ℤ) :
    (2 : ℚ) ^ (mantissa.log2 + exponent) ≤ mantissa * 2 ^ exponent := by
  have leading : ((2 ^ mantissa.log2 : ℕ) : ℚ) ≤ mantissa := by
    exact_mod_cast Nat.log2_self_le nonzero
  rw [two_zpow_add, zpow_natCast]
  push_cast at leading
  exact mul_le_mul_of_nonneg_right leading (two_zpow_pos exponent).le

/-- A value below a power of two has its leading bit below this power. -/
theorem leading_lt_of_lt {mantissa : ℕ} (nonzero : mantissa ≠ 0) {exponent limit : ℤ}
    (bounded : (mantissa : ℚ) * 2 ^ exponent < 2 ^ limit) : mantissa.log2 + exponent < limit :=
  (zpow_lt_zpow_iff_right₀ (by norm_num : (1 : ℚ) < 2)).1
    ((two_zpow_log2_le nonzero exponent).trans_lt bounded)

/-- Rounding aims at 53 bits, and it stops at the lowest exponent. -/
theorem targetExponent_totalExponent (mantissa : ℕ) (exponent : ℤ) :
    Format.binary64.targetExponent (totalExponent mantissa exponent) =
      max (mantissa.log2 + exponent - 52) (-1074) := by
  have bits : Format.binary64.mantissaBits = 53 := rfl
  simp only [Format.targetExponent, totalExponent, bits, Format.minExponent]
  omega

/-- Only a value beyond all floats is moved to an exponent beyond the format. -/
theorem targetExponent_le {mantissa : ℕ} {exponent : ℤ} (small : exponent ≤ 971)
    (bounded : (mantissa : ℚ) * 2 ^ exponent < 2 ^ (1024 : ℤ)) :
    Format.binary64.targetExponent (totalExponent mantissa exponent) ≤ 971 := by
  have leading : (mantissa.log2 : ℤ) + exponent < 1024 := by
    by_cases isZero : mantissa = 0
    · rw [isZero, Nat.log2_zero]
      omega
    · exact leading_lt_of_lt isZero bounded
  rw [targetExponent_totalExponent]
  omega

end Exponents

section Shifting

/-- The smallest mantissa that is not below the value that the residual bits stand for. -/
def ceiling (extended : ExtendedMantissa) : ℕ :=
  if extended.roundBit || extended.stickyBit then extended.mantissa + 1 else extended.mantissa

/-- Rounding goes up to the next mantissa at most. -/
theorem roundedMantissa_le_ceiling (extended : ExtendedMantissa) :
    extended.roundedMantissa ≤ ceiling extended := by
  rcases extended with ⟨mantissa, roundBit, stickyBit⟩
  cases roundBit <;> cases stickyBit <;>
    simp [ceiling, ExtendedMantissa.roundedMantissa, ExtendedMantissa.accuracy,
      Accuracy.roundToNearestEven]
  omega

/-- A bound on the ceiling is halved with the mantissa. -/
theorem ceiling_shiftRightOne_le {extended : ExtendedMantissa} {bound : ℕ}
    (bounded : ceiling extended ≤ bound * 2) : ceiling extended.shiftRightOne ≤ bound := by
  rcases extended with ⟨mantissa, roundBit, stickyBit⟩
  cases roundBit <;> cases stickyBit <;>
    simp only [ceiling, ExtendedMantissa.shiftRightOne, Bool.or_false, Bool.or_true, Bool.or_self,
      Bool.false_eq_true, bne_iff_ne, if_true, if_false] at bounded ⊢ <;>
    (try split) <;> omega

/-- A bound on the ceiling is shifted with the mantissa. -/
theorem ceiling_shiftRight_le {extended : ExtendedMantissa} {bound count : ℕ}
    (bounded : ceiling extended ≤ bound * 2 ^ count) : ceiling (extended >>> count) ≤ bound := by
  change ceiling (count.repeat ExtendedMantissa.shiftRightOne extended) ≤ bound
  induction count generalizing bound with
  | zero => exact Nat.le_trans bounded (Nat.le_of_eq (Nat.mul_one bound))
  | succ count inductionHypothesis =>
      apply ceiling_shiftRightOne_le
      apply inductionHypothesis
      rw [Nat.pow_succ, Nat.mul_comm (2 ^ count), ← Nat.mul_assoc] at bounded
      exact bounded

/-- Shifting divides the mantissa and drops the remainder. -/
theorem mantissa_shiftRight (extended : ExtendedMantissa) (count : ℕ) :
    (extended >>> count).mantissa = extended.mantissa / 2 ^ count := by
  change (count.repeat ExtendedMantissa.shiftRightOne extended).mantissa = _
  induction count with
  | zero => exact (Nat.div_one _).symm
  | succ count inductionHypothesis =>
      change (count.repeat ExtendedMantissa.shiftRightOne extended).mantissa / 2 = _
      rw [inductionHypothesis, Nat.div_div_eq_div_mul, Nat.pow_succ]

end Shifting

section Rounding

variable {mantissa significand : ℕ} {exponent power : ℤ}

/-- A significand of 53 bits stays below the power of two above it. -/
theorem lt_of_fits (fits : significand < 2 ^ 53) (power : ℤ) :
    (significand : ℚ) * 2 ^ power < 2 ^ (53 + power) := by
  rw [two_zpow_add]
  apply mul_lt_mul_of_pos_right _ (two_zpow_pos power)
  exact_mod_cast fits

/-- At the highest exponent a significand of 53 bits is still finite. -/
theorem lt_of_highest (fits : significand < 2 ^ 53) (highest : power ≤ 971) :
    (significand : ℚ) * 2 ^ power < 2 ^ (1024 : ℤ) :=
  (lt_of_fits fits power).trans_le (zpow_le_zpow_right₀ (by norm_num) (by omega))

/-- A mantissa is only shifted as far as 53 bits are left of it, or to the lowest exponent. -/
theorem lt_of_shifted (nonzero : mantissa ≠ 0) (fits : significand < 2 ^ 53)
    (lowest : -1074 ≤ power)
    (shifted : power < Format.binary64.targetExponent (totalExponent mantissa exponent)) :
    (significand : ℚ) * 2 ^ power < mantissa * 2 ^ exponent := by
  have leading : (53 : ℤ) + power ≤ mantissa.log2 + exponent := by
    rw [targetExponent_totalExponent] at shifted
    omega
  calc
    (significand : ℚ) * 2 ^ power < 2 ^ (53 + power) := lt_of_fits fits power
    _ ≤ 2 ^ (mantissa.log2 + exponent) := zpow_le_zpow_right₀ (by norm_num) leading
    _ ≤ mantissa * 2 ^ exponent := two_zpow_log2_le nonzero exponent

/-- This is the number of bits that rounding takes off. -/
def excess (mantissa : ℕ) (exponent : ℤ) : ℕ :=
  (Format.binary64.targetExponent (totalExponent mantissa exponent) - exponent).toNat

/-- This is the exact mantissa without its excess. -/
def shortened (mantissa : ℕ) (exponent : ℤ) : ExtendedMantissa :=
  (⟨mantissa, false, false⟩ : ExtendedMantissa) >>> excess mantissa exponent

/-- Rounding never passes a float that bounds the exact value. -/
theorem roundedMantissa_shortened_le (nonzero : mantissa ≠ 0) (fits : significand < 2 ^ 53)
    (lowest : -1074 ≤ power)
    (bounded : (mantissa : ℚ) * 2 ^ exponent ≤ significand * 2 ^ power) :
    ((shortened mantissa exponent).roundedMantissa : ℚ) *
      2 ^ (exponent + excess mantissa exponent) ≤ significand * 2 ^ power := by
  by_cases whole : excess mantissa exponent = 0
  · rw [shortened, whole, Nat.cast_zero, Int.add_zero]
    exact bounded
  · have reached : exponent + excess mantissa exponent =
        Format.binary64.targetExponent (totalExponent mantissa exponent) := by
      unfold excess at whole ⊢
      omega
    -- A lower power would leave no room for the leading bit.
    have notBelow : exponent + excess mantissa exponent ≤ power := by
      by_contra below
      have shifted : power < Format.binary64.targetExponent (totalExponent mantissa exponent) := by
        omega
      exact absurd bounded (not_le.2 (lt_of_shifted nonzero fits lowest shifted))
    obtain ⟨shift, split⟩ := Int.exists_add_of_le notBelow
    have raised : (2 : ℚ) ^ power = 2 ^ shift * 2 ^ excess mantissa exponent * 2 ^ exponent := by
      rw [split, two_zpow_add, two_zpow_add, zpow_natCast, zpow_natCast]
      ring
    have exact : mantissa ≤ significand * 2 ^ shift * 2 ^ excess mantissa exponent := by
      rw [raised, ← mul_assoc] at bounded
      have counted := le_of_mul_le_mul_right bounded (two_zpow_pos exponent)
      rw [← mul_assoc] at counted
      exact_mod_cast counted
    have rounded : (shortened mantissa exponent).roundedMantissa ≤ significand * 2 ^ shift :=
      Nat.le_trans (roundedMantissa_le_ceiling _) (ceiling_shiftRight_le exact)
    calc
      ((shortened mantissa exponent).roundedMantissa : ℚ) *
          2 ^ (exponent + excess mantissa exponent) ≤
          (significand * 2 ^ shift : ℕ) * 2 ^ (exponent + excess mantissa exponent) :=
        mul_le_mul_of_nonneg_right (by exact_mod_cast rounded) (two_zpow_pos _).le
      _ = significand * 2 ^ power := by
        rw [raised, two_zpow_add, zpow_natCast]
        push_cast
        ring

/-- A value below the largest power is not shortened beyond the highest exponent. -/
theorem exponent_add_excess_le (small : exponent ≤ 971)
    (bounded : (mantissa : ℚ) * 2 ^ exponent < 2 ^ (1024 : ℤ)) :
    exponent + excess mantissa exponent ≤ 971 := by
  have target := targetExponent_le small bounded
  unfold excess
  omega

/-- The bits that are taken off lead up to the lowest exponent at least. -/
theorem le_exponent_add_excess (mantissa : ℕ) (exponent : ℤ) :
    -1074 ≤ exponent + excess mantissa exponent := by
  rw [excess, targetExponent_totalExponent]
  omega

/-- A mantissa that rounding may shorten keeps its leading bit above the lowest exponent. -/
theorem leading_shortened (long : 52 ≤ mantissa.log2 ∨ exponent ≤ -1074) :
    2 ^ 52 ≤ (shortened mantissa exponent).mantissa ∨
      exponent + excess mantissa exponent = -1074 := by
  by_cases lowest : exponent + excess mantissa exponent = -1074
  · exact .inr lowest
  · apply Or.inl
    have count : 52 + excess mantissa exponent = mantissa.log2 := by
      rw [excess, targetExponent_totalExponent] at lowest ⊢
      omega
    have nonzero : mantissa ≠ 0 := by
      rintro rfl
      rw [Nat.log2_zero] at count
      omega
    rw [shortened, mantissa_shiftRight, Nat.le_div_iff_mul_le (Nat.two_pow_pos _), ← Nat.pow_add,
      count]
    exact Nat.log2_self_le nonzero

/-- Rounding never goes below the mantissa. -/
theorem mantissa_le_roundedMantissa (extended : ExtendedMantissa) :
    extended.mantissa ≤ extended.roundedMantissa := by
  rcases extended with ⟨mantissa, roundBit, stickyBit⟩
  cases roundBit <;> cases stickyBit <;>
    simp [ExtendedMantissa.roundedMantissa, ExtendedMantissa.accuracy,
      Accuracy.roundToNearestEven]

/-- Bits that are taken off do not make a value larger. -/
theorem mantissa_shortened_le (mantissa : ℕ) (exponent : ℤ) :
    ((shortened mantissa exponent).mantissa : ℚ) * 2 ^ (exponent + excess mantissa exponent) ≤
      mantissa * 2 ^ exponent := by
  have floored : mantissa / 2 ^ excess mantissa exponent * 2 ^ excess mantissa exponent ≤
      mantissa := Nat.div_mul_le_self mantissa _
  have counted : ((mantissa / 2 ^ excess mantissa exponent : ℕ) : ℚ) *
      2 ^ excess mantissa exponent ≤ mantissa := by
    exact_mod_cast floored
  rw [shortened, mantissa_shiftRight, Int.add_comm, two_zpow_add, zpow_natCast, ← mul_assoc]
  exact mul_le_mul_of_nonneg_right counted (two_zpow_pos exponent).le

/-- Rounding does not pass a value of 53 bits. -/
theorem isWithin_roundWithAccuracy (sign : Sign) (nonzero : mantissa ≠ 0)
    (long : 52 ≤ mantissa.log2 ∨ exponent ≤ -1074) (small : exponent ≤ 971)
    (fits : significand < 2 ^ 53) (lowest : -1074 ≤ power) (highest : power ≤ 971)
    (bounded : (mantissa : ℚ) * 2 ^ exponent ≤ significand * 2 ^ power) :
    IsWithin (significand * 2 ^ power)
      (roundWithAccuracy Format.binary64 sign mantissa exponent .exact) := by
  have finite := lt_of_highest fits highest
  have first := roundedMantissa_shortened_le nonzero fits lowest bounded
  have reached := exponent_add_excess_le small (lt_of_le_of_lt bounded finite)
  have second := exponent_add_excess_le reached (lt_of_le_of_lt first finite)
  change IsWithin _ (if isZero : (shortened (shortened mantissa exponent).roundedMantissa
      (exponent + excess mantissa exponent)).mantissa = 0 then .zero sign
    else .finite sign _ (exponent + excess mantissa exponent + excess _ _)
      (Nat.pos_of_ne_zero isZero))
  by_cases kept : (shortened (shortened mantissa exponent).roundedMantissa
      (exponent + excess mantissa exponent)).mantissa = 0
  · rw [dif_pos kept]
    exact size_nonneg significand power
  · rw [dif_neg kept]
    have longRounded : 52 ≤ (shortened mantissa exponent).roundedMantissa.log2 ∨
        exponent + excess mantissa exponent ≤ -1074 := by
      rcases leading_shortened long with leading | lowest
      · have rounded := leading.trans (mantissa_le_roundedMantissa _)
        exact .inl ((Nat.le_log2 (by omega)).2 rounded)
      · exact .inr lowest.le
    refine ⟨⟨?_, le_exponent_add_excess _ _, second⟩, (mantissa_shortened_le _ _).trans first⟩
    exact (leading_shortened longRounded).imp_left (Nat.le_log2 kept).2

end Rounding

section Packing

variable {limit : ℚ}

/-- The implicit bit stands above the fraction. -/
theorem toNat_implicitBit (fraction : BitVec 52) :
    (1#1 ++ fraction).toNat = 2 ^ 52 + fraction.toNat := by
  rw [BitVec.toNat_append, ← Nat.shiftLeft_add_eq_or_of_lt fraction.isLt]
  rfl

/-- A mantissa with its leading bit is restored from its fraction. -/
theorem toNat_restored {mantissa : ℕ} (leading : 2 ^ 52 ≤ mantissa) (fits : mantissa < 2 ^ 53) :
    (1#1 ++ BitVec.ofNat 52 mantissa).toNat = mantissa := by
  rw [toNat_implicitBit, BitVec.toNat_ofNat]
  omega

/-- These exponent bits are kept, and they mark neither an infinity nor a subnormal float. -/
theorem biasedBits {biased : ℕ} (positive : 0 < biased) (small : biased < 2047) :
    (BitVec.ofNat 11 biased).toNat = biased ∧ BitVec.ofNat 11 biased ≠ -1#11 ∧
      BitVec.ofNat 11 biased ≠ 0#11 := by
  have kept : (BitVec.ofNat 11 biased).toNat = biased := by
    rw [BitVec.toNat_ofNat]
    omega
  have value {bits : BitVec 11} (same : BitVec.ofNat 11 biased = bits) : biased = bits.toNat :=
    kept.symm.trans (congrArg BitVec.toNat same)
  refine ⟨kept, fun same => ?_, fun same => ?_⟩
  · have largest : biased = 2047 := value same
    omega
  · exact positive.ne' (value same)

/-- The leading bit of a normal float is left out and put back. -/
theorem isWithin_unpack_normal (sign : Sign) {mantissa biased : ℕ} (normal : mantissa.log2 = 52)
    (positive : 0 < biased) (small : biased < 2047)
    (within : (mantissa : ℚ) * 2 ^ ((biased : ℤ) - 1075) ≤ limit) :
    IsWithin limit (unpack Format.binary64
      (packComponents Format.binary64 sign (BitVec.ofNat _ biased) (BitVec.ofNat _ mantissa))) := by
  have nonzero : mantissa ≠ 0 := by
    rintro rfl
    cases normal
  have lower : 2 ^ 52 ≤ mantissa := (Nat.le_log2 nonzero).1 (Nat.le_of_eq normal.symm)
  have upper : mantissa < 2 ^ 53 := (Nat.log2_lt nonzero).1 (by omega)
  obtain ⟨kept, notOnes, notZeros⟩ := biasedBits positive small
  have restored := toNat_restored lower upper
  have exponentBits : unpackExponent (packComponents Format.binary64 sign (BitVec.ofNat _ biased)
      (BitVec.ofNat _ mantissa)) = BitVec.ofNat 11 biased := unpackExponent_packComponents
  unfold UnpackedFloat.unpack
  dsimp only
  rw [if_neg (exponentBits.trans_ne notOnes), if_neg (exponentBits.trans_ne notZeros)]
  change IsCanonical _ _ ∧ _ ≤ _
  rw [unpackMantissa_packComponents, exponentBits, restored, kept]
  have bias : ((Format.binary64.exponentBias : ℤ) + Format.binary64.mantissaBitsWithoutImplicit) =
      1075 := rfl
  rw [bias]
  exact ⟨⟨.inl normal.ge, by omega, by omega⟩, within⟩

/-- Below the normal floats only the lowest exponent is left. -/
theorem isWithin_unpack_subnormal (sign : Sign) {mantissa : ℕ}
    (within : (mantissa : ℚ) * 2 ^ (-1074 : ℤ) ≤ limit) :
    IsWithin limit (unpack Format.binary64
      (packComponents Format.binary64 sign 0#_ (BitVec.ofNat _ mantissa))) := by
  have notOnes : (0#11) ≠ -1#11 := by decide
  have kept : (BitVec.ofNat 52 mantissa).toNat ≤ mantissa := by
    rw [BitVec.toNat_ofNat]
    exact Nat.mod_le mantissa _
  unfold UnpackedFloat.unpack
  dsimp only
  rw [if_neg (unpackExponent_packComponents.trans_ne notOnes),
    if_pos unpackExponent_packComponents]
  by_cases isZero : unpackMantissa (packComponents Format.binary64 sign 0#_
      (BitVec.ofNat _ mantissa)) = 0#_
  · rw [dif_pos isZero]
    exact (size_nonneg mantissa _).trans within
  · rw [dif_neg isZero]
    change IsCanonical _ _ ∧ _ ≤ _
    rw [unpackMantissa_packComponents, unpackExponent_packComponents]
    refine ⟨⟨.inr rfl, by decide, by decide⟩, ?_⟩
    exact (mul_le_mul_of_nonneg_right (by exact_mod_cast kept) (two_zpow_pos _).le).trans within

/-- A float that is within a limit stays so when it is packed into bits. -/
theorem isWithin_unpack_pack {value : UnpackedFloat} (within : IsWithin limit value) :
    IsWithin limit (Float.Model.pack value).unpack := by
  change IsWithin limit (unpack Format.binary64 (UnpackedFloat.pack Format.binary64 value))
  cases value with
  | infinity sign => exact within.elim
  | notANumber => exact within.elim
  | zero sign =>
      have zeroBits : UnpackedFloat.pack Format.binary64 (.zero sign) =
          packComponents Format.binary64 sign 0#_ (BitVec.ofNat _ 0) := rfl
      rw [zeroBits]
      apply isWithin_unpack_subnormal sign
      rw [Nat.cast_zero, zero_mul]
      exact within
  | finite sign mantissa exponent positive =>
      obtain ⟨⟨_, lowest, highest⟩, bounded⟩ := within
      have biased : (exponent + Format.binary64.exponentBias +
          Format.binary64.mantissaBitsWithoutImplicit).toNat = (exponent + 1075).toNat := by
        change (exponent + 1023 + 52).toNat = _
        omega
      have inRange : ¬ 2 ^ Format.binary64.exponentBits ≤ (exponent + 1075).toNat + 1 := by
        change ¬ 2 ^ 11 ≤ _
        omega
      unfold UnpackedFloat.pack
      simp only [biased, if_neg inRange]
      split
      · next normal =>
          have leading : mantissa.log2 + 1 = 53 := normal
          apply isWithin_unpack_normal sign (by omega) (by omega) (by omega)
          have restored : (((exponent + 1075).toNat : ℕ) : ℤ) - 1075 = exponent := by omega
          rw [restored]
          exact bounded
      · apply isWithin_unpack_subnormal sign
        exact (mul_le_mul_of_nonneg_left (zpow_le_zpow_right₀ (by norm_num) lowest)
          (Nat.cast_nonneg mantissa)).trans bounded

end Packing

section Arithmetic

/-- A whole number is rounded, and so it does not pass a bound of 53 bits either. -/
theorem isWithin_toFloat {number : UInt64} {significand power : ℕ} (fits : significand < 2 ^ 53)
    (highest : power ≤ 971) (bounded : number.toNat ≤ significand * 2 ^ power) :
    IsWithin (significand * 2 ^ (power : ℤ)) number.toFloat.toModel.unpack := by
  apply isWithin_unpack_pack
  change IsWithin _ (UnpackedFloat.normalize Format.binary64 number.toNat 0 .positive)
  unfold UnpackedFloat.normalize
  split
  · next negative =>
      rw [Int.compare_eq_lt] at negative
      omega
  · exact size_nonneg significand power
  · next positive =>
      rw [Int.compare_eq_gt] at positive
      have nonzero : number.toNat ≠ 0 := by omega
      unfold UnpackedFloat.round decreaseExponent
      dsimp only
      rw [Int.toNat_natCast]
      generalize isCount : (0 - Format.binary64.targetExponent _).toNat = count
      -- The number is first made as long as a mantissa.
      have longEnough : 52 ≤ number.toNat.log2 + count := by
        rw [targetExponent_totalExponent] at isCount
        omega
      have long : 2 ^ 52 ≤ number.toNat <<< count := by
        rw [Nat.shiftLeft_eq]
        calc
          2 ^ 52 ≤ 2 ^ (number.toNat.log2 + count) := Nat.pow_le_pow_right (by decide) longEnough
          _ = 2 ^ number.toNat.log2 * 2 ^ count := Nat.pow_add ..
          _ ≤ number.toNat * 2 ^ count := Nat.mul_le_mul_right _ (Nat.log2_self_le nonzero)
      have same : ((number.toNat <<< count : ℕ) : ℚ) * 2 ^ (0 - (count : ℤ)) = number.toNat := by
        rw [Nat.shiftLeft_eq, Int.zero_sub, zpow_neg, zpow_natCast]
        push_cast
        rw [mul_assoc, mul_inv_cancel₀ (by positivity), mul_one]
      have shifted : number.toNat <<< count ≠ 0 := by omega
      apply isWithin_roundWithAccuracy _ shifted (.inl ((Nat.le_log2 shifted).2 long)) (by omega)
        fits (by omega) (by omega)
      rw [same]
      exact_mod_cast bounded

/-- The product of two mantissas is long enough, unless both are at the lowest exponent. -/
theorem isWithin_product (sign : Sign) {first second significand : ℕ}
    {firstExponent secondExponent power : ℤ} (nonzero : first * second ≠ 0)
    (firstCanonical : IsCanonical first firstExponent)
    (secondCanonical : IsCanonical second secondExponent) (fits : significand < 2 ^ 53)
    (lowest : -1074 ≤ power) (highest : power ≤ 971)
    (bounded : ((first * second : ℕ) : ℚ) * 2 ^ (firstExponent + secondExponent) ≤
      significand * 2 ^ power) :
    IsWithin (significand * 2 ^ power) (roundWithAccuracy Format.binary64 sign (first * second)
      (firstExponent + secondExponent) .exact) := by
  have parts := Nat.mul_ne_zero_iff.1 nonzero
  have long : 52 ≤ (first * second).log2 ∨ firstExponent + secondExponent ≤ -1074 := by
    rcases firstCanonical.leading with leading | firstLowest
    · have below := (Nat.le_log2 parts.1).1 leading
      exact .inl ((Nat.le_log2 nonzero).2
        (below.trans (Nat.le_mul_of_pos_right first (Nat.pos_of_ne_zero parts.2))))
    · rcases secondCanonical.leading with leading | secondLowest
      · have below := (Nat.le_log2 parts.2).1 leading
        exact .inl ((Nat.le_log2 nonzero).2
          (below.trans (Nat.le_mul_of_pos_left second (Nat.pos_of_ne_zero parts.1))))
      · exact .inr (by omega)
  have small : firstExponent + secondExponent ≤ 971 := by
    rcases long with leading | low
    · have below := leading_lt_of_lt nonzero (bounded.trans_lt (lt_of_highest fits highest))
      omega
    · omega
  exact isWithin_roundWithAccuracy sign nonzero long small fits lowest highest bounded

/-- Rounding a product does not pass a value of 53 bits that the exact one does not pass. -/
theorem isWithin_mul {first second : Float} {firstLimit secondLimit : ℚ} {significand : ℕ}
    {power : ℤ} (firstWithin : IsWithin firstLimit first.toModel.unpack)
    (secondWithin : IsWithin secondLimit second.toModel.unpack) (fits : significand < 2 ^ 53)
    (lowest : -1074 ≤ power) (highest : power ≤ 971)
    (bounded : firstLimit * secondLimit ≤ significand * 2 ^ power) :
    IsWithin (significand * 2 ^ power) (first * second).toModel.unpack := by
  apply isWithin_unpack_pack
  have nonneg := size_nonneg significand power
  generalize first.toModel.unpack = first at firstWithin ⊢
  generalize second.toModel.unpack = second at secondWithin ⊢
  cases first with
  | infinity _ => exact firstWithin.elim
  | notANumber => exact firstWithin.elim
  | zero _ =>
      cases second with
      | infinity _ => exact secondWithin.elim
      | notANumber => exact secondWithin.elim
      | zero _ => exact nonneg
      | finite _ _ _ _ => exact nonneg
  | finite _ mantissa exponent positive =>
      cases second with
      | infinity _ => exact secondWithin.elim
      | notANumber => exact secondWithin.elim
      | zero _ => exact nonneg
      | finite _ secondMantissa secondExponent secondPositive =>
          obtain ⟨firstCanonical, firstBounded⟩ := firstWithin
          obtain ⟨secondCanonical, secondBounded⟩ := secondWithin
          apply isWithin_product _ (Nat.mul_pos positive secondPositive).ne' firstCanonical
            secondCanonical fits lowest highest
          calc
            ((mantissa * secondMantissa : ℕ) : ℚ) * 2 ^ (exponent + secondExponent) =
                mantissa * 2 ^ exponent * (secondMantissa * 2 ^ secondExponent) := by
              rw [two_zpow_add]
              push_cast
              ring
            _ ≤ firstLimit * secondLimit :=
              mul_le_mul firstBounded secondBounded (size_nonneg _ _)
                ((size_nonneg mantissa exponent).trans firstBounded)
            _ ≤ significand * 2 ^ power := bounded

end Arithmetic

end LightList.Decimal
