/-
This file says how far rounding moves a value, and which values it moves to a given float.

A value is rounded to a float from half a gap below it up to half a gap above it. Below a power of two
the gap is half as wide. So rounding passes no float, and the values between two ends have one result.
-/

import LightList.Proofs.Decimal.NearestEven

namespace LightList.Decimal

open Float.Model Float.Model.UnpackedFloat

/-- The gap to the float below, as far as values of it are rounded up, in units of the last bit. -/
def gapBelow (mantissa : ℕ) (exponent : ℤ) : ℚ :=
  if mantissa = 2 ^ 52 ∧ -1074 < exponent then 1 / 4 else 1 / 2

/-- The gap below a float is never wider than the one above. -/
theorem gapBelow_le (mantissa : ℕ) (exponent : ℤ) : gapBelow mantissa exponent ≤ 1 / 2 := by
  unfold gapBelow
  split
  · norm_num
  · exact le_refl _

/-- Values between these ends are rounded to the float; the ends themselves only to an even one. -/
structure IsBetween (mantissa : ℕ) (exponent : ℤ) (size : ℚ) : Prop where
  low : (mantissa - gapBelow mantissa exponent) * 2 ^ exponent ≤ size
  high : size ≤ (mantissa + 1 / 2) * 2 ^ exponent
  lowEven : size = (mantissa - gapBelow mantissa exponent) * 2 ^ exponent → mantissa % 2 = 0
  highEven : size = (mantissa + 1 / 2) * 2 ^ exponent → mantissa % 2 = 0

/-- The value is the size of a float, if there were no largest one. -/
def IsFloatSize (size : ℚ) : Prop :=
  ∃ mantissa exponent, IsMantissa mantissa exponent ∧ size = mantissa * 2 ^ exponent

namespace RoundsTo

variable {size rounded : ℚ} {mantissa : ℕ} {exponent : ℤ}

/--
A value up to the middle above a float is not rounded beyond it; the middle itself counts where the
float is even.
-/
theorem le_of_high (rounds : RoundsTo size rounded) (isMantissa : IsMantissa mantissa exponent)
    (high : size ≤ (mantissa + 1 / 2) * 2 ^ exponent)
    (highEven : size = (mantissa + 1 / 2) * 2 ^ exponent → mantissa % 2 = 0) :
    rounded ≤ mantissa * 2 ^ exponent := by
  obtain ⟨nearest, power, grid, isNearest, rfl⟩ := rounds
  obtain ⟨few, _⟩ := grid.mantissa_le isNearest
  have scale := two_zpow_pos exponent
  rcases lt_trichotomy power exponent with finer | same | coarser
  · have leading : 2 ^ 52 ≤ mantissa := by
      rcases isMantissa.leading with lowest | leading
      · have reached := grid.lowest
        omega
      · exact leading
    calc
      (nearest : ℚ) * 2 ^ power ≤ (2 ^ 53 : ℕ) * 2 ^ power :=
        mul_le_mul_of_nonneg_right (Nat.cast_le.2 few) (two_zpow_pos power).le
      _ = 2 ^ (53 + power) := by rw [two_zpow_add]; norm_num
      _ ≤ 2 ^ (52 + exponent) := zpow_le_zpow_right₀ (by norm_num) (by omega)
      _ = (2 ^ 52 : ℕ) * 2 ^ exponent := by rw [two_zpow_add]; norm_num
      _ ≤ mantissa * 2 ^ exponent := mul_le_mul_of_nonneg_right (Nat.cast_le.2 leading) scale.le
  · subst same
    have below : size / 2 ^ power ≤ mantissa + 1 / 2 := (div_le_iff₀ scale).2 high
    have next : nearest ≤ mantissa + 1 := by
      have close : (nearest : ℚ) ≤ (mantissa + 1 : ℕ) := by
        push_cast
        linarith [isNearest.low]
      exact Nat.cast_le.1 close
    rcases Nat.lt_or_eq_of_le next with within | above
    · exact mul_le_mul_of_nonneg_right (Nat.cast_le.2 (Nat.lt_succ_iff.1 within)) scale.le
    · -- Only the middle lies as near to the next mantissa, and then both would be even.
      have low := isNearest.low
      rw [above] at low
      push_cast at low
      have middle : size / 2 ^ power = mantissa + 1 / 2 := by linarith
      have isEven := highEven ((div_eq_iff scale.ne').1 middle)
      have nextEven := isNearest.tie (.inl (by rw [middle, above]; push_cast; ring))
      omega
  · have reached : 2 ^ (52 + power) ≤ size := by
      rcases grid.reached with lowest | reached
      · have least := isMantissa.lowest
        omega
      · exact reached
    have short : (mantissa : ℚ) + 1 / 2 < 2 ^ 53 := by
      have fits : (mantissa : ℚ) ≤ (2 ^ 53 - 1 : ℕ) := Nat.cast_le.2 (Nat.le_pred_of_lt isMantissa.fits)
      push_cast at fits
      linarith
    have passed : size < 2 ^ (52 + power) :=
      calc
        size ≤ (mantissa + 1 / 2) * 2 ^ exponent := high
        _ < 2 ^ 53 * 2 ^ exponent := mul_lt_mul_of_pos_right short scale
        _ = 2 ^ (53 + exponent) := (two_zpow_add 53 exponent).symm
        _ ≤ 2 ^ (52 + power) := zpow_le_zpow_right₀ (by norm_num) (by omega)
    exact absurd reached (not_le.2 passed)

/-- Only a power of two is reached from a finer grid, and from the next finer one alone. -/
theorem next_of_finer {power : ℤ} (grid : IsGrid size power)
    (isMantissa : IsMantissa mantissa exponent)
    (low : (mantissa - gapBelow mantissa exponent) * 2 ^ exponent ≤ size)
    (finer : power < exponent) :
    mantissa = 2 ^ 52 ∧ exponent = power + 1 ∧ gapBelow mantissa exponent = 1 / 4 := by
  have scale := two_zpow_pos exponent
  have lowest := grid.lowest
  have large : 2 ^ 52 ≤ mantissa := by
    rcases isMantissa.leading with lowest | large
    · omega
    · exact large
  have below : ((mantissa : ℚ) - gapBelow mantissa exponent) * 2 ^ exponent < 2 ^ (53 + power) :=
    low.trans_lt grid.below
  -- What lies below the end of the finer grid is small in units of the coarser one.
  have less (bits : ℤ) (far : 53 + power ≤ bits + exponent) :
      (mantissa : ℚ) - gapBelow mantissa exponent < 2 ^ bits := by
    have reached : (2 : ℚ) ^ (53 + power) ≤ 2 ^ bits * 2 ^ exponent := by
      rw [← two_zpow_add]
      exact zpow_le_zpow_right₀ (by norm_num) far
    exact lt_of_mul_lt_mul_right (below.trans_le reached) scale.le
  have isPower : mantissa = 2 ^ 52 := by
    by_contra other
    have more : ((2 ^ 52 + 1 : ℕ) : ℚ) ≤ mantissa := Nat.cast_le.2 (by omega)
    have short := less 52 (by omega)
    have half := gapBelow_le mantissa exponent
    push_cast at more
    norm_num at short
    linarith
  have quarter : gapBelow mantissa exponent = 1 / 4 := if_pos ⟨isPower, by omega⟩
  refine ⟨isPower, ?_, quarter⟩
  by_contra other
  have short := less 51 (by omega)
  rw [quarter, isPower] at short
  norm_num at short

/-- There the nearest mantissa has one bit too many. -/
theorem ge_of_finer {nearest : ℕ} {power : ℤ} (grid : IsGrid size power)
    (isNearest : IsNearest nearest (size / 2 ^ power)) (isMantissa : IsMantissa mantissa exponent)
    (low : (mantissa - gapBelow mantissa exponent) * 2 ^ exponent ≤ size)
    (finer : power < exponent) : (mantissa : ℚ) * 2 ^ exponent ≤ nearest * 2 ^ power := by
  obtain ⟨isPower, next, quarter⟩ := next_of_finer grid isMantissa low finer
  have scale := two_zpow_pos power
  have doubled : (2 : ℚ) ^ exponent = 2 * 2 ^ power := by
    rw [next, two_zpow_add]
    ring
  have above : (2 : ℚ) ^ 53 - 1 / 2 ≤ size / 2 ^ power := by
    rw [le_div_iff₀ scale]
    rw [quarter, isPower, doubled] at low
    push_cast at low
    linarith
  have carried : 2 ^ 53 ≤ nearest := by
    by_contra short
    have most : (nearest : ℚ) ≤ (2 ^ 53 - 1 : ℕ) := Nat.cast_le.2 (by omega)
    have high := isNearest.high
    push_cast at most
    have last : (nearest : ℚ) = (2 ^ 53 - 1 : ℕ) := by
      push_cast
      linarith
    have isEven := isNearest.tie (.inr (by linarith))
    rw [Nat.cast_inj.1 last] at isEven
    norm_num at isEven
  calc
    (mantissa : ℚ) * 2 ^ exponent = (2 ^ 53 : ℕ) * 2 ^ power := by
      rw [isPower, doubled]
      push_cast
      ring
    _ ≤ nearest * 2 ^ power := mul_le_mul_of_nonneg_right (Nat.cast_le.2 carried) scale.le

/--
A value down to the middle below a float is not rounded below it; the middle itself counts where the
float is even.
-/
theorem ge_of_low (rounds : RoundsTo size rounded) (isMantissa : IsMantissa mantissa exponent)
    (low : (mantissa - gapBelow mantissa exponent) * 2 ^ exponent ≤ size)
    (lowEven : size = (mantissa - gapBelow mantissa exponent) * 2 ^ exponent → mantissa % 2 = 0) :
    mantissa * 2 ^ exponent ≤ rounded := by
  obtain ⟨nearest, power, grid, isNearest, rfl⟩ := rounds
  have scale := two_zpow_pos exponent
  have half := gapBelow_le mantissa exponent
  rcases lt_trichotomy power exponent with finer | same | coarser
  · exact ge_of_finer grid isNearest isMantissa low finer
  · subst same
    have above : (mantissa : ℚ) - gapBelow mantissa power ≤ size / 2 ^ power :=
      (le_div_iff₀ scale).2 low
    have next : mantissa ≤ nearest + 1 := by
      have close : (mantissa : ℚ) ≤ (nearest + 1 : ℕ) := by
        push_cast
        linarith [isNearest.high]
      exact Nat.cast_le.1 close
    rcases Nat.lt_or_eq_of_le next with within | below
    · exact mul_le_mul_of_nonneg_right (Nat.cast_le.2 (Nat.lt_succ_iff.1 within)) scale.le
    · have high := isNearest.high
      rw [below] at above half
      push_cast at above half
      have middle : size / 2 ^ power = nearest + 1 / 2 := by linarith
      have isEven := isNearest.tie (.inr middle)
      have nextEven := lowEven ((div_eq_iff scale.ne').1 (by rw [below]; push_cast; linarith))
      omega
  · have large : 2 ^ 52 ≤ nearest := by
      rcases (grid.mantissa_le isNearest).2 with lowest | large
      · have least := isMantissa.lowest
        omega
      · exact large
    calc
      (mantissa : ℚ) * 2 ^ exponent ≤ (2 ^ 53 : ℕ) * 2 ^ exponent :=
        mul_le_mul_of_nonneg_right (Nat.cast_le.2 isMantissa.fits.le) scale.le
      _ = 2 ^ (53 + exponent) := by rw [two_zpow_add]; norm_num
      _ ≤ 2 ^ (52 + power) := zpow_le_zpow_right₀ (by norm_num) (by omega)
      _ = (2 ^ 52 : ℕ) * 2 ^ power := by rw [two_zpow_add]; norm_num
      _ ≤ nearest * 2 ^ power :=
        mul_le_mul_of_nonneg_right (Nat.cast_le.2 large) (two_zpow_pos power).le

/-- Between its ends a float is what values are rounded to. -/
theorem eq_of_isBetween (rounds : RoundsTo size rounded) (isMantissa : IsMantissa mantissa exponent)
    (between : IsBetween mantissa exponent size) : rounded = mantissa * 2 ^ exponent :=
  le_antisymm (rounds.le_of_high isMantissa between.high between.highEven)
    (rounds.ge_of_low isMantissa between.low between.lowEven)

/-- Rounding never passes a float that is not below the value. -/
theorem le_of_le (rounds : RoundsTo size rounded) (isMantissa : IsMantissa mantissa exponent)
    (below : size ≤ mantissa * 2 ^ exponent) : rounded ≤ mantissa * 2 ^ exponent := by
  have inside : (mantissa : ℚ) * 2 ^ exponent < (mantissa + 1 / 2) * 2 ^ exponent :=
    mul_lt_mul_of_pos_right (by linarith) (two_zpow_pos exponent)
  exact rounds.le_of_high isMantissa (below.trans inside.le) fun atEnd =>
    absurd (below.trans_lt inside) (by rw [atEnd]; exact lt_irrefl _)

/-- Rounding never passes a float that is not above the value. -/
theorem ge_of_ge (rounds : RoundsTo size rounded) (isMantissa : IsMantissa mantissa exponent)
    (above : mantissa * 2 ^ exponent ≤ size) : mantissa * 2 ^ exponent ≤ rounded := by
  have positive : 0 < gapBelow mantissa exponent := by
    unfold gapBelow
    split <;> norm_num
  have inside : ((mantissa : ℚ) - gapBelow mantissa exponent) * 2 ^ exponent <
      mantissa * 2 ^ exponent :=
    mul_lt_mul_of_pos_right (by linarith) (two_zpow_pos exponent)
  exact rounds.ge_of_low isMantissa (inside.le.trans above) fun atEnd =>
    absurd (inside.trans_le above) (by rw [atEnd]; exact lt_irrefl _)

/-- No float is passed. -/
theorem le_of_isFloatSize (rounds : RoundsTo size rounded) {limit : ℚ} (isFloat : IsFloatSize limit)
    (below : size ≤ limit) : rounded ≤ limit := by
  obtain ⟨_, _, isMantissa, rfl⟩ := isFloat
  exact rounds.le_of_le isMantissa below

/-- The size of a float that is not above the value is not passed. -/
theorem ge_of_isFloatSize (rounds : RoundsTo size rounded) {limit : ℚ} (isFloat : IsFloatSize limit)
    (above : limit ≤ size) : limit ≤ rounded := by
  obtain ⟨_, _, isMantissa, rfl⟩ := isFloat
  exact rounds.ge_of_ge isMantissa above

/-- So a float is rounded to itself. -/
theorem eq_of_isFloatSize (rounds : RoundsTo size rounded) (isFloat : IsFloatSize size) :
    rounded = size :=
  le_antisymm (rounds.le_of_isFloatSize isFloat le_rfl) (rounds.ge_of_isFloatSize isFloat le_rfl)

theorem nonneg (rounds : RoundsTo size rounded) : 0 ≤ rounded := by
  obtain ⟨nearest, power, _, _, rfl⟩ := rounds
  exact size_nonneg nearest power

/-- Rounding moves a value by half a gap at most. -/
theorem exists_gap (rounds : RoundsTo size rounded) :
    ∃ power, IsGrid size power ∧ |rounded - size| ≤ 2 ^ (power - 1) := by
  obtain ⟨nearest, power, grid, isNearest, rfl⟩ := rounds
  have scale := two_zpow_pos power
  have split : size = size / 2 ^ power * 2 ^ power := (div_mul_cancel₀ size scale.ne').symm
  have near : |(nearest : ℚ) - size / 2 ^ power| ≤ 1 / 2 :=
    abs_le.2 ⟨by linarith [isNearest.high], by linarith [isNearest.low]⟩
  apply Exists.intro power
  apply And.intro grid
  calc
    |nearest * 2 ^ power - size| = |(nearest - size / 2 ^ power) * 2 ^ power| := by
      rw [sub_mul, ← split]
    _ = |(nearest : ℚ) - size / 2 ^ power| * 2 ^ power := by rw [abs_mul, abs_of_pos scale]
    _ ≤ 1 / 2 * 2 ^ power := mul_le_mul_of_nonneg_right near scale.le
    _ = 2 ^ (power - 1) := by
      rw [sub_eq_neg_add, two_zpow_add]
      norm_num

end RoundsTo

/-- Half a gap is small next to the value, or it is that of the smallest floats. -/
theorem IsGrid.halfGap_le {size : ℚ} {power : ℤ} (grid : IsGrid size power) :
    (2 : ℚ) ^ (power - 1) ≤ 2 ^ (-53 : ℤ) * size ∨ power = -1074 := by
  rcases grid.reached with lowest | reached
  · exact .inr lowest
  · apply Or.inl
    calc
      (2 : ℚ) ^ (power - 1) = 2 ^ (-53 : ℤ) * 2 ^ (52 + power) := by
        rw [← two_zpow_add]
        congr 1
        omega
      _ ≤ 2 ^ (-53 : ℤ) * size := mul_le_mul_of_nonneg_left reached (two_zpow_pos _).le

end LightList.Decimal
