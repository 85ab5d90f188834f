/-
This file shows that a decimal of seventeen digits is read as a float if its value is below the
largest one.

The digits are rounded once, and the product with the power of ten is rounded again. So it takes a
bound on the digits that a float holds exactly, and it takes the powers of ten as they are rounded.
-/

import LightList.Decimal.Scaled
import LightList.Proofs.Decimal.FloatBounds

namespace LightList.Decimal

open Float.Model Float.Model.UnpackedFloat

/-- One of the two natural powers is one. -/
theorem zpow_mul_pow_toNat {base : ℕ} (positive : 0 < base) (power : ℤ) :
    (base : ℚ) ^ power * (base : ℚ) ^ (-power).toNat = (base : ℚ) ^ power.toNat := by
  have nonzero : (base : ℚ) ≠ 0 := by exact_mod_cast positive.ne'
  rw [← zpow_natCast, ← zpow_natCast, ← zpow_add₀ nonzero]
  congr 1
  omega

/-- A comparison of whole numbers decides one of their products with powers. -/
theorem mul_zpow_le_iff {base : ℕ} (positive : 0 < base) {first second : ℕ} {power : ℤ} :
    (first : ℚ) * (base : ℚ) ^ power ≤ second ↔
      first * base ^ power.toNat ≤ second * base ^ (-power).toNat := by
  have scale : (0 : ℚ) < (base : ℚ) ^ (-power).toNat := by positivity
  rw [← mul_le_mul_iff_left₀ scale, mul_assoc, zpow_mul_pow_toNat positive]
  exact_mod_cast Iff.rfl

/-- Both signs of a power are compared in whole numbers. -/
theorem le_mul_zpow_iff {base : ℕ} (positive : 0 < base) {first second : ℕ} {power : ℤ} :
    (first : ℚ) ≤ second * (base : ℚ) ^ power ↔
      first * base ^ (-power).toNat ≤ second * base ^ power.toNat := by
  have scale : (0 : ℚ) < (base : ℚ) ^ (-power).toNat := by positivity
  rw [← mul_le_mul_iff_left₀ scale, mul_assoc, zpow_mul_pow_toNat positive]
  exact_mod_cast Iff.rfl

/-- This is the size of the largest float. -/
def largest : ℕ := (2 ^ 53 - 1) * 2 ^ 971

theorem two_zpow_eq_cast (power : ℕ) : (2 : ℚ) ^ (power : ℤ) = ((2 ^ power : ℕ) : ℚ) := by
  rw [zpow_natCast, Nat.cast_pow, Nat.cast_ofNat]

/-- The largest float has all of its 53 bits at the highest exponent. -/
theorem largest_eq : (largest : ℚ) = (2 ^ 53 - 1 : ℕ) * 2 ^ (971 : ℤ) := by
  rw [largest, Nat.cast_mul]
  exact congrArg (_ * ·) (two_zpow_eq_cast 971).symm

/-- This lies half a gap below the largest float. -/
def belowLargest : ℕ := (2 ^ 54 - 3) * 2 ^ 970

section Powers

/-- These are compared as they stand: two and ten have no common power. -/
theorem powers_bounded :
    2 ^ 967 ≤ largest / (5 ^ 17 * 2 ^ 17) ∧ 10 ^ 291 ≤ 2 ^ 967 ∧ 10 ^ 308 ≤ largest ∧
      belowLargest < 10 ^ 309 := by
  decide +kernel

/-- These are 53 bits and a power of two that bound the digits next to a power of ten. -/
def digitsBound (exponent : ℕ) : ℕ × ℕ :=
  if exponent < 292 then (5 ^ 17, 17)
  else if exponent = 292 then (4494232837155789, 2)
  else (belowLargest / 10 ^ exponent, 0)

/-- Every bound is a float, and it is not below what the digits may reach. -/
theorem digitsBound_covers : ∀ exponent < 309,
    (digitsBound exponent).1 < 2 ^ 53 ∧ (digitsBound exponent).2 ≤ 971 ∧
      min (10 ^ 17) (belowLargest / 10 ^ exponent) ≤
        (digitsBound exponent).1 * 2 ^ (digitsBound exponent).2 := by
  decide +kernel

/-- The digits may be multiplied by as much as this. -/
def powerBound (exponent : ℕ) : ℕ :=
  largest / ((digitsBound exponent).1 * 2 ^ (digitsBound exponent).2)

/-- This decides whether a float is within a whole number. -/
def isWithin (limit : ℕ) : UnpackedFloat → Bool
  | .finite _ mantissa exponent _ =>
      mantissa.log2 = 52 && -1074 ≤ exponent && exponent ≤ 971 &&
        mantissa * 2 ^ exponent.toNat ≤ limit * 2 ^ (-exponent).toNat
  | _ => false

/-- What is decided in whole numbers holds of the float. -/
theorem isWithin_of_decided {limit : ℕ} {value : UnpackedFloat}
    (decided : isWithin limit value = true) : IsWithin limit value := by
  cases value with
  | infinity _ => cases decided
  | notANumber => cases decided
  | zero _ => cases decided
  | finite _ mantissa exponent _ =>
      change (_ && _ && _ && _) = true at decided
      simp only [Bool.and_eq_true, decide_eq_true_eq] at decided
      obtain ⟨⟨⟨leading, lowest⟩, highest⟩, bounded⟩ := decided
      exact ⟨⟨.inl leading.ge, lowest, highest⟩, (mul_zpow_le_iff (by decide)).2 bounded⟩

/-- The smallest powers are looked up, and the largest ones are next to the largest float. -/
theorem isWithin_outerPowers : ∀ exponent < 309, exponent ≤ 22 ∨ 292 ≤ exponent →
    isWithin (powerBound exponent) (powerOfTen exponent).toModel.unpack = true := by
  decide +kernel

/-- Ten to this power is less than two to that one, and the bound is more. -/
theorem le_powerBound {exponent : ℕ} (below : exponent < 292) :
    ((1 : ℕ) : ℚ) * 2 ^ ((967 : ℕ) : ℤ) ≤ powerBound exponent := by
  have bound : powerBound exponent = largest / (5 ^ 17 * 2 ^ 17) := by
    rw [powerBound, digitsBound, if_pos below]
  rw [bound, two_zpow_eq_cast, Nat.cast_one, one_mul]
  exact Nat.cast_le.2 powers_bounded.1

/-- Beyond the table a power of ten is a product that is rounded. -/
theorem powerOfTen_eq_pack {exponent : ℕ} (above : 22 < exponent) (below : exponent ≤ 308) :
    powerOfTen exponent = .ofModel (.pack (roundWithAccuracy Format.binary64 .positive
      (2 ^ 53 * 10 ^ exponent) (-53) .exact)) := by
  have modelled : powerOfTen exponent =
      .ofModel (.pack (UnpackedFloat.ofScientific Format.binary64 1 exponent)) :=
    dif_neg fun exact => absurd exact.2 (not_le.2 above)
  have notHuge : ¬ (exponent : ℤ) > 2 ^ Format.binary64.exponentBits := by
    change ¬ (exponent : ℤ) > 2048
    omega
  have notTiny : ¬ (exponent : ℤ) < -((2 ^ Format.binary64.exponentBits : ℤ) + Nat.log2 1) := by
    omega
  rw [modelled, UnpackedFloat.ofScientific, dif_neg (by decide), if_neg notHuge, if_neg notTiny,
    if_pos (by omega)]
  rfl

/-- The scaled power of ten has more than 52 bits. -/
theorem le_log2_ten_pow (exponent : ℕ) : 52 ≤ (2 ^ 53 * 10 ^ exponent).log2 := by
  have long : 2 ^ 52 ≤ 2 ^ 53 * 10 ^ exponent :=
    (by decide : 2 ^ 52 ≤ 2 ^ 53).trans (Nat.le_mul_of_pos_right _ (by positivity))
  exact (Nat.le_log2 (by positivity)).2 long

/-- Scaling by 53 bits up and down gives the power of ten. -/
theorem ten_pow_eq (exponent : ℕ) :
    ((2 ^ 53 * 10 ^ exponent : ℕ) : ℚ) * 2 ^ (-53 : ℤ) = ((10 ^ exponent : ℕ) : ℚ) := by
  have unit : (2 : ℚ) ^ (-53 : ℤ) * (2 ^ 53 : ℕ) = 1 := by norm_num
  rw [Nat.cast_mul, mul_comm, ← mul_assoc, unit, one_mul]

/-- The powers between them are rounded, but stay far below. -/
theorem isWithin_innerPowers {exponent : ℕ} (above : 22 < exponent) (below : exponent < 292) :
    IsWithin (powerBound exponent) (powerOfTen exponent).toModel.unpack := by
  apply IsWithin.mono (le_powerBound below)
  rw [powerOfTen_eq_pack above (by omega)]
  apply isWithin_unpack_pack
  have bounded : (10 : ℕ) ^ exponent ≤ 2 ^ 967 :=
    (pow_le_pow_right₀ (by decide) (by omega : exponent ≤ 291)).trans powers_bounded.2.1
  apply isWithin_roundWithAccuracy .positive (by positivity) (.inl (le_log2_ten_pow exponent))
    (by decide) (by decide) (by decide) (by decide)
  rw [ten_pow_eq, two_zpow_eq_cast, Nat.cast_one, one_mul]
  exact Nat.cast_le.2 bounded

/-- Every power of ten that is used is within the bound that goes with its digits. -/
theorem isWithin_powerOfTen {exponent : ℕ} (small : exponent < 309) :
    IsWithin (powerBound exponent) (powerOfTen exponent).toModel.unpack := by
  by_cases outer : exponent ≤ 22 ∨ 292 ≤ exponent
  · exact isWithin_of_decided (isWithin_outerPowers exponent small outer)
  · exact isWithin_innerPowers (by omega) (by omega)

end Powers

/-- The digits and the power of ten are rounded, and then their product is. -/
theorem isFinite_mul_powerOfTen {significand : UInt64} {exponent : ℕ} (small : exponent < 309)
    (digits : significand.toNat ≤ 10 ^ 17)
    (bounded : significand.toNat * 10 ^ exponent ≤ belowLargest) :
    (significand.toFloat * powerOfTen exponent).isFinite = true := by
  obtain ⟨fits, highest, covered⟩ := digitsBound_covers exponent small
  have quotient : significand.toNat ≤ belowLargest / 10 ^ exponent :=
    (Nat.le_div_iff_mul_le (Nat.pow_pos (by decide))).2 bounded
  have within := isWithin_toFloat fits highest ((Nat.le_min.2 ⟨digits, quotient⟩).trans covered)
  apply IsWithin.isFinite
  apply isWithin_mul within (isWithin_powerOfTen small) (by decide : 2 ^ 53 - 1 < 2 ^ 53)
    (by decide) (by decide : (971 : ℤ) ≤ 971)
  rw [← largest_eq, two_zpow_eq_cast, ← Nat.cast_mul, ← Nat.cast_mul, powerBound]
  exact Nat.cast_le.2 (Nat.mul_div_le largest _)

theorem isInf_of_isFinite {value : Float} (finite : value.isFinite = true) :
    value.isInf = false := by
  change value.toModel.unpack.isFinite = true at finite
  change value.toModel.unpack.isInf = false
  cases unpacked : value.toModel.unpack with
  | infinity sign =>
      rw [unpacked] at finite
      cases finite
  | notANumber => rfl
  | zero sign => rfl
  | finite sign mantissa exponent positive => rfl

/-- The decimal is read, though not always as the nearest float. -/
theorem isSome_scaled? {significand : ℕ} {exponent : ℤ} (nonzero : significand ≠ 0)
    (digits : significand ≤ 10 ^ 17)
    (bounded : (significand : ℚ) * 10 ^ exponent ≤ belowLargest) :
    (scaled? significand.toUInt64 exponent).isSome = true := by
  unfold scaled?
  dsimp only
  split
  · rfl
  · next notNegative =>
      obtain ⟨power, rfl⟩ := Int.eq_ofNat_of_zero_le (not_lt.1 notNegative)
      have kept : significand.toUInt64.toNat = significand :=
        Nat.mod_eq_of_lt (digits.trans_lt (by decide))
      rw [zpow_natCast] at bounded
      have product : significand * 10 ^ power ≤ belowLargest := by exact_mod_cast bounded
      have small : power < 309 := by
        have least : 10 ^ power ≤ belowLargest :=
          (Nat.le_mul_of_pos_left _ (Nat.pos_of_ne_zero nonzero)).trans product
        have smaller (count : ℕ) (below : belowLargest < 10 ^ count) : power < count :=
          (Nat.pow_lt_pow_iff_right (by decide)).1 (least.trans_lt below)
        exact smaller 309 powers_bounded.2.2.2
      rw [if_pos (by unfold largestPower; omega), Int.natAbs_natCast]
      rw [← kept] at digits product
      rw [isInf_of_isFinite (isFinite_mul_powerOfTen small digits product)]
      rfl

end LightList.Decimal
