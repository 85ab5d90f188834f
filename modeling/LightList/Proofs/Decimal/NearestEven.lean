/-
This file says which float a value is rounded to: the nearest one, and of two that are as near the one
with the even mantissa.

The bits that a mantissa loses are kept in two bits, which tell on which side of the middle between
two mantissas the value lies. Shifting halves the value and keeps this meaning.
-/

import LightList.Proofs.Decimal.FloatBounds
import Mathlib.Tactic.Linarith

namespace LightList.Decimal

open Float.Model Float.Model.UnpackedFloat

/-- The residual bits tell where a value lies between its mantissa and the next one. -/
def Represents (extended : ExtendedMantissa) (value : ℚ) : Prop :=
  match extended.roundBit, extended.stickyBit with
  | false, false => value = extended.mantissa
  | false, true => extended.mantissa < value ∧ value < extended.mantissa + 1 / 2
  | true, false => value = extended.mantissa + 1 / 2
  | true, true => extended.mantissa + 1 / 2 < value ∧ value < extended.mantissa + 1

/-- This is the nearest whole number, and the even one of two that are as near. -/
structure IsNearest (rounded : ℕ) (value : ℚ) : Prop where
  low : rounded - 1 / 2 ≤ value
  high : value ≤ rounded + 1 / 2
  tie : value = rounded - 1 / 2 ∨ value = rounded + 1 / 2 → rounded % 2 = 0

/-- A value off the middle is no tie. -/
theorem IsNearest.ofStrict {rounded : ℕ} {value : ℚ} (low : (rounded : ℚ) - 1 / 2 < value)
    (high : value < rounded + 1 / 2) : IsNearest rounded value where
  low := low.le
  high := high.le
  tie middle := by
    rcases middle with below | above
    · exact absurd below low.ne'
    · exact absurd above high.ne

namespace Represents

variable {extended : ExtendedMantissa} {value : ℚ}

/-- The mantissa is not above the value that is represented. -/
theorem mantissa_le (represents : Represents extended value) : extended.mantissa ≤ value := by
  rcases extended with ⟨mantissa, roundBit, stickyBit⟩
  cases roundBit <;> cases stickyBit <;> simp only [Represents] at represents <;> linarith

/-- The mantissa is less than one below the value that is represented. -/
theorem lt_mantissa_add_one (represents : Represents extended value) :
    value < extended.mantissa + 1 := by
  rcases extended with ⟨mantissa, roundBit, stickyBit⟩
  cases roundBit <;> cases stickyBit <;> simp only [Represents] at represents <;> linarith

/-- The rounded mantissa is nearest to the value, and a tie goes to the even one. -/
theorem isNearest (represents : Represents extended value) :
    IsNearest extended.roundedMantissa value := by
  rcases extended with ⟨mantissa, roundBit, stickyBit⟩
  cases roundBit with
  | false =>
      have kept : (⟨mantissa, false, stickyBit⟩ : ExtendedMantissa).roundedMantissa = mantissa := by
        cases stickyBit <;> rfl
      have below : (mantissa : ℚ) ≤ value ∧ value < mantissa + 1 / 2 := by
        cases stickyBit with
        | false => 
            simp only [Represents] at represents
            constructor <;> linarith
        | true => exact ⟨represents.1.le, represents.2⟩
      rw [kept]
      exact .ofStrict (by linarith) below.2
  | true =>
      cases stickyBit with
      | false =>
          have middle : value = mantissa + 1 / 2 := represents
          have rounded : (⟨mantissa, true, false⟩ : ExtendedMantissa).roundedMantissa =
            mantissa + mantissa % 2 := rfl
          rw [rounded, middle]
          rcases Nat.mod_two_eq_zero_or_one mantissa with isEven | isOdd
          · rw [isEven]
            exact ⟨by push_cast; linarith, by push_cast; linarith, fun _ => by omega⟩
          · rw [isOdd]
            exact ⟨by push_cast; linarith, by push_cast; linarith, fun _ => by omega⟩
      | true =>
          have above : (mantissa : ℚ) + 1 / 2 < value ∧ value < mantissa + 1 := represents
          have rounded : (⟨mantissa, true, true⟩ : ExtendedMantissa).roundedMantissa =
            mantissa + 1 := rfl
          rw [rounded]
          apply IsNearest.ofStrict
          · push_cast
            linarith
          · push_cast
            linarith

/-- A shift by one bit represents half of the value. -/
theorem shiftRightOne (represents : Represents extended value) :
    Represents extended.shiftRightOne (value / 2) := by
  rcases extended with ⟨mantissa, roundBit, stickyBit⟩
  have halved : ((mantissa % 2 : ℕ) : ℚ) + 2 * (mantissa / 2 : ℕ) = mantissa := by
    exact_mod_cast Nat.mod_add_div mantissa 2
  have shifted : (⟨mantissa, roundBit, stickyBit⟩ : ExtendedMantissa).shiftRightOne =
      ⟨mantissa / 2, mantissa % 2 != 0, roundBit || stickyBit⟩ := rfl
  rw [shifted]
  -- The lowest bit becomes the round bit, and both residual bits become the sticky one.
  rcases Nat.mod_two_eq_zero_or_one mantissa with isEven | isOdd
  · rw [isEven, Nat.cast_zero] at halved
    rw [isEven, bne_self_eq_false]
    cases roundBit <;> cases stickyBit <;> simp only [Represents, Bool.or_self, Bool.or_true,
      Bool.or_false] at represents ⊢
    · linarith
    all_goals constructor <;> linarith
  · rw [isOdd, Nat.cast_one] at halved
    rw [isOdd, show ((1 : ℕ) != 0) = true from rfl]
    cases roundBit <;> cases stickyBit <;> simp only [Represents, Bool.or_self, Bool.or_true,
      Bool.or_false] at represents ⊢
    · linarith
    all_goals constructor <;> linarith

/-- A shift represents the value divided by a power of two. -/
theorem shiftRight (represents : Represents extended value) (count : ℕ) :
    Represents (extended >>> count) (value / 2 ^ count) := by
  change Represents (count.repeat ExtendedMantissa.shiftRightOne extended) _
  induction count with
  | zero =>
      rw [pow_zero, div_one]
      exact represents
  | succ count inductionHypothesis =>
      rw [pow_succ, ← div_div]
      exact inductionHypothesis.shiftRightOne

theorem ofExact (mantissa : ℕ) : Represents (.ofMantissaAndAccuracy mantissa .exact) mantissa := rfl

/-- A quotient is represented by its whole part and by how the remainder compares to half. -/
theorem ofFraction (numerator : ℕ) {denominator : ℕ} (positive : 0 < denominator) :
    Represents (.ofMantissaAndAccuracy (numerator / denominator)
      (accuracyOfFraction (numerator % denominator) denominator)) (numerator / denominator) := by
  have scale : (0 : ℚ) < denominator := Nat.cast_pos.2 positive
  have parts : (numerator : ℚ) / denominator = (numerator / denominator : ℕ) +
      (numerator % denominator : ℕ) / denominator := by
    rw [div_eq_iff scale.ne', add_mul, div_mul_cancel₀ _ scale.ne']
    exact_mod_cast (Nat.div_add_mod' numerator denominator).symm
  have small : ((numerator % denominator : ℕ) : ℚ) / denominator < 1 := by
    rw [div_lt_one scale]
    exact_mod_cast Nat.mod_lt numerator positive
  rw [parts]
  generalize numerator / denominator = quotient
  generalize numerator % denominator = remainder at small ⊢
  unfold accuracyOfFraction
  split
  · next whole =>
      rw [whole, Nat.cast_zero, zero_div, add_zero]
      exact ofExact quotient
  · next inexact =>
      have some : 0 < (remainder : ℚ) / denominator :=
        div_pos (Nat.cast_pos.2 (Nat.pos_of_ne_zero inexact)) scale
      cases compared : compare (2 * remainder) denominator with
      | lt =>
          have below : (2 : ℚ) * remainder < denominator := by
            exact_mod_cast Nat.compare_eq_lt.1 compared
          have half : (remainder : ℚ) / denominator < 1 / 2 := by
            rw [div_lt_iff₀ scale]
            linarith
          change (quotient : ℚ) < _ ∧ _ < (quotient : ℚ) + 1 / 2
          constructor <;> linarith
      | eq =>
          have middle : (2 : ℚ) * remainder = denominator := by
            exact_mod_cast Nat.compare_eq_eq.1 compared
          have half : (remainder : ℚ) / denominator = 1 / 2 := by
            rw [div_eq_iff scale.ne']
            linarith
          exact congrArg (_ + ·) half
      | gt =>
          have above : (denominator : ℚ) < 2 * remainder := by
            exact_mod_cast Nat.compare_eq_gt.1 compared
          have half : 1 / 2 < (remainder : ℚ) / denominator := by
            rw [lt_div_iff₀ scale]
            linarith
          change (quotient : ℚ) + 1 / 2 < _ ∧ _ < (quotient : ℚ) + 1
          constructor <;> linarith

end Represents

/-- A float of this size has its last bit at this power of two. -/
structure IsGrid (size : ℚ) (exponent : ℤ) : Prop where
  lowest : -1074 ≤ exponent
  below : size < 2 ^ (53 + exponent)
  reached : exponent = -1074 ∨ 2 ^ (52 + exponent) ≤ size

/-- The second value is the float that the first one is rounded to, if floats had no largest one. -/
def RoundsTo (size rounded : ℚ) : Prop :=
  ∃ (mantissa : ℕ) (exponent : ℤ), IsGrid size exponent ∧
    IsNearest mantissa (size / 2 ^ exponent) ∧ rounded = mantissa * 2 ^ exponent

/-- These are the mantissas and exponents of floats, if there were no largest one. -/
structure IsMantissa (mantissa : ℕ) (exponent : ℤ) : Prop where
  fits : mantissa < 2 ^ 53
  lowest : -1074 ≤ exponent
  leading : exponent = -1074 ∨ 2 ^ 52 ≤ mantissa

/-- The float is finite with this sign and size, except that its exponent may be too large. -/
def HasSize (sign : Sign) (size : ℚ) : UnpackedFloat → Prop
  | .zero other => other = sign ∧ size = 0
  | .finite other mantissa exponent _ =>
      other = sign ∧ IsMantissa mantissa exponent ∧ size = mantissa * 2 ^ exponent
  | _ => False

section Rounding

variable {mantissa : ℕ} {exponent : ℤ} {accuracy : Accuracy} {scaled : ℚ}

/-- The accuracy only decides the residual bits. -/
theorem mantissa_ofMantissaAndAccuracy (mantissa : ℕ) (accuracy : Accuracy) :
    (ExtendedMantissa.ofMantissaAndAccuracy mantissa accuracy).mantissa = mantissa := by
  rcases accuracy with _ | order
  · rfl
  · cases order <;> rfl

/-- The excess leads to the exponent at which 53 bits are left, or to the lowest one. -/
theorem add_excess (long : 52 ≤ mantissa.log2 ∨ exponent ≤ -1074) :
    exponent + excess mantissa exponent = max (mantissa.log2 + exponent - 52) (-1074) := by
  rw [excess, targetExponent_totalExponent]
  omega

/-- Rounding shifts a mantissa to the last bit of the floats of its size. -/
theorem isGrid_of_represents
    (represents : Represents (.ofMantissaAndAccuracy mantissa accuracy) scaled)
    (long : 52 ≤ mantissa.log2 ∨ exponent ≤ -1074) :
    IsGrid (scaled * 2 ^ exponent) (exponent + excess mantissa exponent) := by
  have low := represents.mantissa_le
  have high := represents.lt_mantissa_add_one
  rw [mantissa_ofMantissaAndAccuracy] at low high
  have reached := add_excess long
  constructor
  · omega
  · have bits : (mantissa : ℚ) + 1 ≤ 2 ^ ((mantissa.log2 : ℤ) + 1) := by
      have counted : mantissa + 1 ≤ 2 ^ (mantissa.log2 + 1) := Nat.lt_log2_self
      exact_mod_cast counted
    calc
      scaled * 2 ^ exponent < 2 ^ ((mantissa.log2 : ℤ) + 1) * 2 ^ exponent :=
        mul_lt_mul_of_pos_right (high.trans_le bits) (two_zpow_pos exponent)
      _ = 2 ^ ((mantissa.log2 : ℤ) + 1 + exponent) := (two_zpow_add _ _).symm
      _ ≤ 2 ^ (53 + (exponent + excess mantissa exponent)) :=
        zpow_le_zpow_right₀ (by norm_num) (by omega)
  · by_cases lowest : exponent + excess mantissa exponent = -1074
    · exact .inl lowest
    · apply Or.inr
      have nonzero : mantissa ≠ 0 := by
        rintro rfl
        rw [Nat.log2_zero] at long reached
        omega
      calc
        (2 : ℚ) ^ (52 + (exponent + excess mantissa exponent)) =
            2 ^ (mantissa.log2 + exponent) := by
          congr 1
          omega
        _ ≤ mantissa * 2 ^ exponent := two_zpow_log2_le nonzero exponent
        _ ≤ scaled * 2 ^ exponent := mul_le_mul_of_nonneg_right low (two_zpow_pos exponent).le

/-- The nearest mantissa has at most one bit too many, and then it is a power of two. -/
theorem IsGrid.mantissa_le {size : ℚ} (grid : IsGrid size exponent)
    (nearest : IsNearest mantissa (size / 2 ^ exponent)) :
    mantissa ≤ 2 ^ 53 ∧ (exponent = -1074 ∨ 2 ^ 52 ≤ mantissa) := by
  have scale := two_zpow_pos exponent
  constructor
  · have below : size / 2 ^ exponent < 2 ^ 53 := by
      rw [div_lt_iff₀ scale]
      calc
        size < 2 ^ (53 + exponent) := grid.below
        _ = 2 ^ 53 * 2 ^ exponent := two_zpow_add 53 exponent
    have small : (mantissa : ℚ) < (2 ^ 53 + 1 : ℕ) := by
      push_cast
      linarith [nearest.low]
    exact Nat.lt_succ_iff.1 (Nat.cast_lt.1 small)
  · rcases grid.reached with lowest | reached
    · exact .inl lowest
    · apply Or.inr
      have above : 2 ^ 52 ≤ size / 2 ^ exponent := by
        rw [le_div_iff₀ scale]
        calc
          2 ^ 52 * 2 ^ exponent = (2 : ℚ) ^ (52 + exponent) := (two_zpow_add 52 exponent).symm
          _ ≤ size := reached
      have large : ((2 ^ 52 : ℕ) : ℚ) < (mantissa + 1 : ℕ) := by
        push_cast
        linarith [nearest.high]
      exact Nat.lt_succ_iff.1 (Nat.cast_lt.1 large)

/-- A mantissa with its exponent makes a float of that size. -/
theorem hasSize_assembled (sign : Sign) (isMantissa : IsMantissa mantissa exponent) :
    HasSize sign (mantissa * 2 ^ exponent)
      (if isZero : mantissa = 0 then .zero sign
        else .finite sign mantissa exponent (Nat.pos_of_ne_zero isZero)) := by
  by_cases isZero : mantissa = 0
  · rw [dif_pos isZero, isZero, Nat.cast_zero, zero_mul]
    exact ⟨rfl, rfl⟩
  · rw [dif_neg isZero]
    exact ⟨rfl, isMantissa, rfl⟩

/-- A mantissa of one bit too many is shifted once more. -/
theorem isMantissa_shortened (few : mantissa ≤ 2 ^ 53) (lowest : -1074 ≤ exponent)
    (leading : exponent = -1074 ∨ 2 ^ 52 ≤ mantissa) :
    IsMantissa (shortened mantissa exponent).mantissa (exponent + excess mantissa exponent) ∧
      ((shortened mantissa exponent).mantissa : ℚ) * 2 ^ (exponent + excess mantissa exponent) =
        mantissa * 2 ^ exponent := by
  have target := targetExponent_totalExponent mantissa exponent
  rw [shortened, mantissa_shiftRight]
  rcases Nat.lt_or_eq_of_le few with fits | carried
  · have bits : mantissa.log2 ≤ 52 := by
      by_cases isZero : mantissa = 0
      · rw [isZero, Nat.log2_zero]
        decide
      · exact Nat.lt_succ_iff.1 ((Nat.log2_lt isZero).2 fits)
    have none : excess mantissa exponent = 0 := by
      rw [excess, target]
      omega
    rw [none, pow_zero, Nat.div_one, Nat.cast_zero, Int.add_zero]
    exact ⟨⟨fits, lowest, leading⟩, rfl⟩
  · have one : excess mantissa exponent = 1 := by
      rw [excess, target, carried, Nat.log2_two_pow]
      omega
    have half : (2 ^ 53 / 2 ^ 1 : ℕ) = 2 ^ 52 := by decide
    rw [one, carried, half]
    refine ⟨⟨by decide, by omega, .inr (le_refl _)⟩, ?_⟩
    rw [two_zpow_add]
    push_cast
    ring

/-- Rounding gives the nearest float, and the even one of two that are as near. -/
theorem hasSize_roundWithAccuracy (sign : Sign)
    (represents : Represents (.ofMantissaAndAccuracy mantissa accuracy) scaled)
    (long : 52 ≤ mantissa.log2 ∨ exponent ≤ -1074) :
    ∃ rounded, RoundsTo (scaled * 2 ^ exponent) rounded ∧
      HasSize sign rounded (roundWithAccuracy Format.binary64 sign mantissa exponent accuracy) := by
  have grid := isGrid_of_represents represents long
  have nearest := (represents.shiftRight (excess mantissa exponent)).isNearest
  have same : scaled / 2 ^ excess mantissa exponent =
      scaled * 2 ^ exponent / 2 ^ (exponent + excess mantissa exponent) := by
    rw [two_zpow_add, zpow_natCast, mul_comm (2 ^ exponent : ℚ), mul_div_mul_right]
    exact (two_zpow_pos exponent).ne'
  rw [same] at nearest
  obtain ⟨few, leading⟩ := grid.mantissa_le nearest
  obtain ⟨isMantissa, unmoved⟩ := isMantissa_shortened few grid.lowest leading
  refine ⟨_, ⟨_, _, grid, nearest, rfl⟩, ?_⟩
  rw [← unmoved]
  exact hasSize_assembled sign isMantissa

end Rounding

end LightList.Decimal
