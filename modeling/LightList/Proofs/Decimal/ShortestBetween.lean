/-
This file shows that the shortest digits of a float lie among the values that are rounded to it.

Seventeen digits always suffice: the points of their grid are nearer to each other than the ends of
the float's interval are to the float.
-/

import LightList.Proofs.Decimal.DigitBounds
import LightList.Proofs.Decimal.RoundingLaws

namespace LightList.Decimal

namespace Interval

variable {interval : Interval} {digits : Digits}

/-- The interval holds the points between its ends, and the ends themselves if it is inclusive. -/
theorem contains_iff : interval.contains digits = true ↔
    if interval.inclusive then
      interval.low ≤ digits.value * interval.denominator ∧
        digits.value * interval.denominator ≤ interval.high
    else
      interval.low < digits.value * interval.denominator ∧
        digits.value * interval.denominator < interval.high := by
  have point : digits.value * interval.denominator =
      ((digits.significand * interval.denominator : ℕ) : ℚ) * (10 : ℕ) ^ digits.exponent := by
    rw [Digits.value]
    push_cast
    ring
  have above (bound : ℕ) : ((digits.significand * interval.denominator : ℕ) : ℚ) *
      (10 : ℕ) ^ digits.exponent ≤ bound ↔
        digits.significand * interval.denominator * Nat.pow 10 digits.exponent.toNat ≤
          bound * Nat.pow 10 (-digits.exponent).toNat := mul_zpow_le_iff (by decide)
  have below (bound : ℕ) : (bound : ℚ) ≤ ((digits.significand * interval.denominator : ℕ) : ℚ) *
      (10 : ℕ) ^ digits.exponent ↔ bound * Nat.pow 10 (-digits.exponent).toNat ≤
        digits.significand * interval.denominator * Nat.pow 10 digits.exponent.toNat :=
    le_mul_zpow_iff (by decide)
  rw [point]
  unfold contains
  dsimp only
  cases interval.inclusive with
  | true => simp only [if_true, Bool.and_eq_true, decide_eq_true_eq, above, below]
  | false =>
      simp only [Bool.false_eq_true, if_false, Bool.and_eq_true, decide_eq_true_eq, ← not_le, above,
        below]

/-- The two points of a grid next to the centre lie on both sides of it. -/
theorem centre_between (positive : interval.denominator ≠ 0) (exponent : ℤ) :
    let floor := interval.centre * Nat.pow 10 (-exponent).toNat /
      (interval.denominator * Nat.pow 10 exponent.toNat)
    (⟨floor, exponent⟩ : Digits).value * interval.denominator ≤ interval.centre ∧
      (interval.centre : ℚ) < (⟨floor + 1, exponent⟩ : Digits).value * interval.denominator := by
  intro floor
  have unit : 0 < interval.denominator * Nat.pow 10 exponent.toNat :=
    Nat.mul_pos (Nat.pos_of_ne_zero positive) (Nat.pow_pos (by decide))
  have point (significand : ℕ) : (⟨significand, exponent⟩ : Digits).value * interval.denominator =
      ((significand * interval.denominator : ℕ) : ℚ) * (10 : ℕ) ^ exponent := by
    rw [Digits.value]
    push_cast
    ring
  rw [point, point]
  constructor
  · rw [mul_zpow_le_iff (by decide), Nat.mul_assoc]
    exact Nat.div_mul_le_self _ _
  · rw [← not_le, mul_zpow_le_iff (by decide), not_le, Nat.mul_assoc]
    exact (Nat.div_lt_iff_lt_mul unit).1 (Nat.lt_succ_self floor)

/-- A grid gives a point if one of the two is in the interval. -/
theorem isSome_onGrid? {exponent : ℤ} {significand : ℕ}
    (isNext : significand = interval.centre * Nat.pow 10 (-exponent).toNat /
        (interval.denominator * Nat.pow 10 exponent.toNat) ∨
      significand = interval.centre * Nat.pow 10 (-exponent).toNat /
        (interval.denominator * Nat.pow 10 exponent.toNat) + 1)
    (inside : interval.contains ⟨significand, exponent⟩ = true) :
    (interval.onGrid? exponent).isSome = true := by
  unfold onGrid?
  dsimp only
  split
  · next inFloor inCeiling =>
      rcases isNext with isFloor | isCeiling
      · rw [isFloor, inFloor] at inside
        cases inside
      · rw [isCeiling, inCeiling] at inside
        cases inside
  · rfl
  · rfl
  · split
    · rfl
    · split
      · rfl
      · split <;> rfl

/-- The search ends at the latest where a grid has a point. -/
theorem isSome_search {count : ℕ} {exponent : ℤ}
    (found : (interval.onGrid? (exponent - count)).isSome = true) :
    (interval.search (count + 1) exponent).isSome = true := by
  induction count generalizing exponent with
  | zero =>
      rw [Nat.cast_zero, Int.sub_zero] at found
      obtain ⟨digits, onGrid⟩ := Option.isSome_iff_exists.1 found
      unfold search
      rw [onGrid]
      rfl
  | succ count inductionHypothesis =>
      unfold search
      split
      · rfl
      · apply inductionHypothesis
        have same : exponent - 1 - count = exponent - (count + 1 : ℕ) := by omega
        rw [same]
        exact found

section Ends

variable {significand : ℕ} {power : ℤ}

/-- The ends and the centre are counted in quarters of a gap. -/
theorem cast_quarters (quarters : ℕ) (power : ℤ) (significand : ℕ) :
    ((quarters * 2 ^ power.toNat : ℕ) : ℚ) =
      quarters / 4 * 2 ^ power * (ofBinary significand power).denominator := by
  change _ = (quarters : ℚ) / 4 * 2 ^ power * (4 * 2 ^ (-power).toNat : ℕ)
  have scale := zpow_mul_pow_toNat (by decide : 0 < 2) power
  rw [Nat.cast_ofNat] at scale
  push_cast
  rw [← scale]
  ring

/-- The centre of the interval is the float. -/
theorem centre_ofBinary (significand : ℕ) (power : ℤ) :
    ((ofBinary significand power).centre : ℚ) =
      significand * 2 ^ power * (ofBinary significand power).denominator := by
  refine (cast_quarters (4 * significand) power significand).trans ?_
  push_cast
  ring

/-- The upper bound lies half a unit above the float. -/
theorem high_ofBinary (significand : ℕ) (power : ℤ) :
    ((ofBinary significand power).high : ℚ) =
      (significand + 1 / 2) * 2 ^ power * (ofBinary significand power).denominator := by
  refine (cast_quarters (4 * significand + 2) power significand).trans ?_
  push_cast
  ring

/-- The lower bound lies half of the gap below the float. -/
theorem low_ofBinary (nonzero : significand ≠ 0) (power : ℤ) :
    ((ofBinary significand power).low : ℚ) =
      (significand - gapBelow significand power) * 2 ^ power *
        (ofBinary significand power).denominator := by
  obtain ⟨below, isLow, few, isGap⟩ : ∃ below : ℕ,
      (ofBinary significand power).low = (4 * significand - below) * 2 ^ power.toNat ∧
        below ≤ 4 * significand ∧ gapBelow significand power = below / 4 := by
    by_cases isPower : significand = 2 ^ 52 ∧ -1074 < power
    · refine ⟨1, ?_, by omega, (if_pos isPower).trans (by norm_num)⟩
      exact congrArg (fun below => (4 * significand - below) * _) (if_pos isPower)
    · refine ⟨2, ?_, by omega, (if_neg isPower).trans (by norm_num)⟩
      exact congrArg (fun below => (4 * significand - below) * _) (if_neg isPower)
  rw [isLow, isGap, cast_quarters _ power significand, Nat.cast_sub few]
  push_cast
  ring

theorem denominator_pos (significand : ℕ) (power : ℤ) :
    (0 : ℚ) < (ofBinary significand power).denominator :=
  Nat.cast_pos.2 (Nat.pos_of_ne_zero (IsBinary.denominator_ne_zero significand power))

/-- The interval of a float holds only values that are rounded to it. -/
theorem isBetween_of_contains (nonzero : significand ≠ 0)
    (inside : (ofBinary significand power).contains digits = true) :
    IsBetween significand power digits.value := by
  have positive := denominator_pos significand power
  rw [contains_iff, low_ofBinary nonzero, high_ofBinary] at inside
  simp only [mul_le_mul_iff_left₀ positive, mul_lt_mul_iff_left₀ positive] at inside
  have inclusive : (ofBinary significand power).inclusive = decide (significand % 2 = 0) := rfl
  rw [inclusive] at inside
  by_cases isEven : significand % 2 = 0
  · rw [if_pos (decide_eq_true isEven)] at inside
    exact ⟨inside.1, inside.2, fun _ => isEven, fun _ => isEven⟩
  · rw [if_neg (by rw [decide_eq_true_iff]; exact isEven)] at inside
    exact ⟨inside.1.le, inside.2.le, fun atEnd => (inside.1.ne' atEnd).elim,
      fun atEnd => (inside.2.ne atEnd).elim⟩

/-- Digits strictly between both bounds are in the interval. -/
theorem contains_of_lt (nonzero : significand ≠ 0)
    (low : (significand - gapBelow significand power) * 2 ^ power < digits.value)
    (high : digits.value < (significand + 1 / 2) * 2 ^ power) :
    (ofBinary significand power).contains digits = true := by
  have positive := denominator_pos significand power
  rw [contains_iff, low_ofBinary nonzero, high_ofBinary]
  simp only [mul_le_mul_iff_left₀ positive, mul_lt_mul_iff_left₀ positive]
  split
  · exact ⟨low.le, high.le⟩
  · exact ⟨low, high⟩

end Ends

section Leading

/-- The guess from the logarithms is at most one too large for this power. -/
def reachesPower (power : ℤ) : Bool :=
  let guess := power * 30103 / 100000
  Nat.ble (Nat.pow 10 (guess - 1).toNat * Nat.pow 2 (-(power - 1)).toNat)
    (Nat.pow 10 (-(guess - 1)).toNat * Nat.pow 2 (power - 1).toNat)

/-- The guess is checked for every power that floats have. -/
theorem reachesPower_range :
    ((List.range 2200).all fun offset => reachesPower ((offset : ℤ) - 1100)) = true := by
  decide +kernel

/-- The guess from the logarithms is at most one too large. -/
theorem ten_zpow_le_two_zpow {power : ℤ} (lowest : -1100 ≤ power) (highest : power < 1100) :
    (10 : ℚ) ^ (power * 30103 / 100000 - 1) ≤ 2 ^ (power - 1) := by
  obtain ⟨offset, isOffset⟩ := Int.eq_ofNat_of_zero_le (by omega : 0 ≤ power + 1100)
  have covered := List.all_eq_true.1 reachesPower_range offset (List.mem_range.2 (by omega))
  have same : (offset : ℤ) - 1100 = power := by omega
  rw [same, reachesPower] at covered
  generalize power * 30103 / 100000 - 1 = exponent at covered ⊢
  have counted : ((10 ^ exponent.toNat : ℕ) : ℚ) ≤
      ((10 ^ (-exponent).toNat : ℕ) : ℚ) * (2 : ℕ) ^ (power - 1) :=
    (le_mul_zpow_iff (by decide)).2 (Nat.le_of_ble_eq_true covered)
  rw [Nat.cast_pow, Nat.cast_pow, ← zpow_mul_pow_toNat (by decide) exponent, mul_comm] at counted
  exact le_of_mul_le_mul_left counted (by positivity)

/-- The centre is not below its leading power of ten. -/
theorem leadingExponent_le_centre (nonzero : interval.centre ≠ 0)
    (lowest : -1100 ≤ (interval.centre.log2 : ℤ) - interval.denominator.log2)
    (highest : (interval.centre.log2 : ℤ) - interval.denominator.log2 < 1100) :
    (interval.denominator : ℚ) * 10 ^ interval.leadingExponent ≤ interval.centre := by
  unfold leadingExponent
  dsimp only
  generalize isDifference : (interval.centre.log2 : ℤ) - interval.denominator.log2 = difference
    at lowest highest ⊢
  split
  · next reached => exact (interval.atLeastPower_iff _).1 reached
  · split
    · next reached => exact (interval.atLeastPower_iff _).1 reached
    · have above : (interval.denominator : ℚ) ≤ 2 ^ ((interval.denominator.log2 : ℤ) + 1) := by
        have counted := (Nat.lt_log2_self (n := interval.denominator)).le
        exact_mod_cast counted
      have below : (2 : ℚ) ^ (interval.centre.log2 : ℤ) ≤ interval.centre := by
        rw [two_zpow_eq_cast, Nat.cast_le]
        exact Nat.log2_self_le nonzero
      calc
        (interval.denominator : ℚ) * 10 ^ (difference * 30103 / 100000 - 1) ≤
            2 ^ ((interval.denominator.log2 : ℤ) + 1) * 2 ^ (difference - 1) :=
          mul_le_mul above (ten_zpow_le_two_zpow lowest highest) (by positivity) (by positivity)
        _ = 2 ^ (interval.centre.log2 : ℤ) := by
          rw [← two_zpow_add]
          congr 1
          omega
        _ ≤ interval.centre := below

end Leading

section Seventeen

variable {significand : ℕ} {power exponent : ℤ}

/-- With sixteen more digits the points of a grid are nearer than the ends of the interval. -/
theorem halfGrid_lt (isMantissa : IsMantissa significand power)
    (fine : 10 ^ exponent * 10 ^ 16 ≤ (significand : ℚ) * 2 ^ power) :
    (10 : ℚ) ^ exponent / 2 < gapBelow significand power * 2 ^ power := by
  have scale := two_zpow_pos power
  unfold gapBelow
  split
  · next isPower =>
      rw [isPower.1] at fine
      norm_num at fine
      linarith
  · have fits : (significand : ℚ) * 2 ^ power ≤ 2 ^ 53 * 2 ^ power :=
      mul_le_mul_of_nonneg_right (by exact_mod_cast isMantissa.fits.le) scale.le
    norm_num at fine fits
    linarith

/-- So the nearer one of the two points next to the float is in its interval. -/
theorem isSome_onGrid?_of_fine (isMantissa : IsMantissa significand power)
    (nonzero : significand ≠ 0)
    (fine : 10 ^ exponent * 10 ^ 16 ≤ (significand : ℚ) * 2 ^ power) :
    ((ofBinary significand power).onGrid? exponent).isSome = true := by
  obtain ⟨floor, isFloor⟩ : ∃ floor, floor =
    (ofBinary significand power).centre * Nat.pow 10 (-exponent).toNat /
      ((ofBinary significand power).denominator * Nat.pow 10 exponent.toNat) := ⟨_, rfl⟩
  obtain ⟨below, above⟩ :=
    centre_between (IsBinary.denominator_ne_zero significand power) exponent
  rw [← isFloor, centre_ofBinary] at below above
  have positive := denominator_pos significand power
  rw [mul_le_mul_iff_left₀ positive] at below
  rw [mul_lt_mul_iff_left₀ positive] at above
  have next : (⟨floor + 1, exponent⟩ : Digits).value =
      (⟨floor, exponent⟩ : Digits).value + 10 ^ exponent := by
    simp only [Digits.value]
    push_cast
    ring
  have half := halfGrid_lt isMantissa fine
  have scale := two_zpow_pos power
  have gap := mul_le_mul_of_nonneg_right (gapBelow_le significand power) scale.le
  by_cases near : (significand : ℚ) * 2 ^ power - (⟨floor, exponent⟩ : Digits).value ≤
      10 ^ exponent / 2
  · apply isSome_onGrid? (.inl isFloor)
    apply contains_of_lt nonzero
    · linarith
    · linarith
  · apply isSome_onGrid? (.inr (congrArg (· + 1) isFloor))
    rw [next] at above
    apply contains_of_lt nonzero
    · rw [next]
      linarith
    · rw [next]
      linarith

end Seventeen

end Interval

namespace IsBinary

variable {significand : ℕ} {power : ℤ}

/-- The leading power of ten is not above the float. -/
theorem leadingExponent_le (binary : IsBinary significand power) :
    (10 : ℚ) ^ (Interval.ofBinary significand power).leadingExponent ≤ significand * 2 ^ power := by
  have nonzero : (Interval.ofBinary significand power).centre ≠ 0 :=
    Nat.mul_ne_zero (Nat.mul_ne_zero (by decide) binary.nonzero) (Nat.two_pow_pos _).ne'
  have reached := Interval.leadingExponent_le_centre nonzero binary.log2_range.1
    binary.log2_range.2
  rw [Interval.centre_ofBinary, mul_comm] at reached
  exact le_of_mul_le_mul_right reached (Interval.denominator_pos significand power)

/-- Seventeen grids are enough, so the digits are always found. -/
theorem isSome_search (binary : IsBinary significand power)
    (isMantissa : IsMantissa significand power) :
    ((Interval.ofBinary significand power).search 17
      (Interval.ofBinary significand power).leadingExponent).isSome = true := by
  apply Interval.isSome_search
  apply Interval.isSome_onGrid?_of_fine isMantissa binary.nonzero
  have lower : (10 : ℚ) ^ ((Interval.ofBinary significand power).leadingExponent - (16 : ℕ)) *
      10 ^ 16 = 10 ^ (Interval.ofBinary significand power).leadingExponent := by
    rw [← zpow_natCast (10 : ℚ) 16, ← ten_zpow_add]
    congr 1
    omega
  rw [lower]
  exact binary.leadingExponent_le

/-- The shortest digits are rounded to the float again. -/
theorem isBetween_shortest (binary : IsBinary significand power)
    (isMantissa : IsMantissa significand power) :
    IsBetween significand power (shortest significand power).value := by
  obtain ⟨digits, found⟩ := Option.isSome_iff_exists.1 (binary.isSome_search isMantissa)
  have opened : shortest significand power = digits.trim 20 := by
    unfold shortest
    dsimp only
    rw [found]
  rw [opened, Digits.value_trim]
  exact Interval.isBetween_of_contains binary.nonzero (Interval.contains_of_search found)

end IsBinary

end LightList.Decimal
