/-
This file says when a sum of floats is finite, and when the mean that is made of it is.

A sum up to a power of two is not taken beyond it by half a gap: the middle between the power and the
float above it is rounded to the power, whose mantissa is even. So small values have a finite sum,
however many they are.
-/

import LightList.Proofs.Decimal.FloatArithmetic

namespace LightList.Decimal

open Float.Model Float.Model.UnpackedFloat

section Counts

/-- A whole number of 53 bits is kept. -/
theorem isSized_toFloat {number : ℕ} (small : number < 2 ^ 53) :
    IsSized .positive number number.toUInt64.toFloat := by
  have kept : number.toUInt64.toNat = number :=
    UInt64.toNat_ofNat_of_lt' (small.trans (by decide))
  obtain ⟨whole, rounds, sized⟩ := exists_toFloat number.toUInt64
  rw [kept] at rounds
  rw [rounds.eq_of_isFloatSize (isFloatSize_of_lt small)] at sized
  exact sized

/-- A whole number is rounded, and it is an infinity only beyond all floats. -/
theorem exists_ofNat (number : ℕ) :
    ∃ rounded, RoundsTo number rounded ∧ IsPacked .positive rounded (Float.ofNat number) := by
  by_cases small : number < 2 ^ 53
  · have one : Float.exactlyRepresentablePowersOfTen[0] = (1 : ℕ).toUInt64.toFloat := rfl
    have opened : Float.ofNat number = number.toUInt64.toFloat * (1 : ℕ).toUInt64.toFloat := by
      rw [← one]
      exact dif_pos ⟨small, by decide⟩
    obtain ⟨product, multiplied, packed⟩ :=
      exists_mul (isSized_toFloat small) (isSized_toFloat (by decide : 1 < 2 ^ 53))
    rw [Nat.cast_one, mul_one] at multiplied
    rw [opened]
    exact ⟨product, multiplied, packed⟩
  · have nonzero : number ≠ 0 := by omega
    have bits : (2 : ℤ) ^ Format.binary64.exponentBits = 2048 := rfl
    have opened : Float.ofNat number = .ofModel (.pack (roundWithAccuracy Format.binary64 .positive
        (number <<< 53 * 1) (-53) .exact)) := by
      have modelled : Float.ofNat number =
          .ofModel (.pack (UnpackedFloat.ofScientific Format.binary64 number 0)) :=
        dif_neg fun exact => small exact.1
      rw [modelled, UnpackedFloat.ofScientific, dif_neg nonzero, bits, if_neg (by decide),
        if_neg (by omega), if_pos (le_refl _)]
      rfl
    have shifted : number <<< 53 * 1 = number * 2 ^ 53 := by rw [Nat.mul_one, Nat.shiftLeft_eq]
    have long : 52 ≤ (number * 2 ^ 53).log2 :=
      (Nat.le_log2 (by omega)).2 (by omega)
    obtain ⟨rounded, rounds, hasSize⟩ :=
      hasSize_roundWithAccuracy .positive (.ofExact (number * 2 ^ 53)) (.inl long : _ ∨ (-53 : ℤ) ≤ _)
    have same : ((number * 2 ^ 53 : ℕ) : ℚ) * 2 ^ (-53 : ℤ) = number := by
      push_cast
      rw [mul_assoc]
      norm_num
    rw [same] at rounds
    rw [opened, shifted]
    exact ⟨rounded, rounds, hasSize.isPacked⟩

/-- The integers that a reader holds are finite floats. -/
theorem isFinite_ofInt {value : ℤ} (small : value.natAbs ≤ 2 ^ 64) :
    (Float.ofInt value).isFinite = true := by
  have isMantissa : IsMantissa (2 ^ 52) 12 := ⟨by decide, by decide, .inr (le_refl _)⟩
  have sized {number : ℕ} (few : number ≤ 2 ^ 64) :
      ∃ size, IsSized .positive size (Float.ofNat number) := by
    obtain ⟨rounded, rounds, packed⟩ := exists_ofNat number
    have below : (number : ℚ) ≤ (2 ^ 52 : ℕ) * 2 ^ (12 : ℤ) := by exact_mod_cast few
    exact ⟨rounded, packed.sized
      ((rounds.le_of_le isMantissa below).trans_lt (lt_of_highest (by decide) (by decide)))⟩
  cases value with
  | ofNat number =>
      obtain ⟨_, isSized⟩ := sized small
      exact isSized.isFinite
  | negSucc number =>
      obtain ⟨_, isSized⟩ := sized small
      exact isSized.neg.isFinite

end Counts

section Division

/-- Infinities and values that are no number are packed as such. -/
theorem isFinite_unpack_pack_of_not {value : UnpackedFloat} (infinite : value.isFinite = false) :
    (Float.Model.pack value).unpack.isFinite = false := by
  cases value with
  | infinity sign => cases sign <;> rfl
  | notANumber => rfl
  | zero _ => cases infinite
  | finite _ _ _ _ => cases infinite

/-- No division brings an infinite value or a missing number back. -/
theorem isFinite_div_of_not {value divisor : Float} (infinite : value.isFinite = false) :
    (value / divisor).isFinite = false := by
  change (Float.Model.pack (UnpackedFloat.div Format.binary64 value.toModel.unpack
    divisor.toModel.unpack)).unpack.isFinite = false
  apply isFinite_unpack_pack_of_not
  change value.toModel.unpack.isFinite = false at infinite
  cases unpacked : value.toModel.unpack with
  | infinity _ => cases divisor.toModel.unpack <;> rfl
  | notANumber => rfl
  | zero _ =>
      rw [unpacked] at infinite
      cases infinite
  | finite _ _ _ _ =>
      rw [unpacked] at infinite
      cases infinite

/-- Dividing by how many there are neither makes a value finite nor keeps it from being so. -/
theorem isFinite_div_ofNat (value : Float) {count : ℕ} (some : count ≠ 0) :
    (value / Float.ofNat count).isFinite = value.isFinite := by
  cases isFinite : value.isFinite with
  | false => exact isFinite_div_of_not isFinite
  | true =>
      have sized := isSized_size isFinite
      obtain ⟨divisor, rounds, packed⟩ := exists_ofNat count
      by_cases small : divisor < 2 ^ (1024 : ℤ)
      · have large : 1 ≤ divisor :=
          rounds.ge_of_isFloatSize isFloatSize_one (by exact_mod_cast Nat.one_le_iff_ne_zero.2 some)
        obtain ⟨quotient, divided, quotientPacked⟩ :=
          exists_div sized (packed.sized small) (zero_lt_one.trans_le large).ne'
        have notLarger : quotient ≤ size value :=
          divided.le_of_isFloatSize sized.hasSize.isFloatSize
            (div_le_self sized.hasSize.nonneg large)
        exact (quotientPacked.sized (notLarger.trans_lt sized.small)).isFinite
      · have infinite := packed.infinite (not_lt.1 small)
        change (Float.Model.pack (UnpackedFloat.div Format.binary64 value.toModel.unpack
          (Float.ofNat count).toModel.unpack)).unpack.isFinite = true
        rw [infinite]
        have hasSize := sized.hasSize
        cases unpacked : value.toModel.unpack with
        | infinity _ =>
            rw [unpacked] at hasSize
            exact hasSize.elim
        | notANumber =>
            rw [unpacked] at hasSize
            exact hasSize.elim
        | zero sign => cases sign <;> rfl
        | finite sign mantissa exponent positive =>
            have none : UnpackedFloat.div Format.binary64 (.finite sign mantissa exponent positive)
                (.infinity .positive) = .zero (sign / .positive) := by
              rw [UnpackedFloat.div]
            rw [none]
            cases sign <;> rfl

end Division

section Sums

/-- A small value does not take a sum beyond a power of two. -/
theorem exists_small_add {first second : Float} {firstSign secondSign : Sign}
    {firstSize secondSize : ℚ} (firstSized : IsSized firstSign firstSize first)
    (secondSized : IsSized secondSign secondSize second) (bounded : firstSize ≤ 2 ^ (1023 : ℤ))
    (small : secondSize ≤ 2 ^ (970 : ℤ)) :
    ∃ sign size, IsSized sign size (first + second) ∧ size ≤ 2 ^ (1023 : ℤ) := by
  have isMantissa : IsMantissa (2 ^ 52) 971 := ⟨by decide, by decide, .inr (le_refl _)⟩
  have power : ((2 ^ 52 : ℕ) : ℚ) * 2 ^ (971 : ℤ) = 2 ^ (1023 : ℤ) := by
    have bits : ((2 ^ 52 : ℕ) : ℚ) = 2 ^ (52 : ℤ) := by norm_num
    rw [bits, ← two_zpow_add]
    rfl
  have middle : (((2 ^ 52 : ℕ) : ℚ) + 1 / 2) * 2 ^ (971 : ℤ) = 2 ^ (1023 : ℤ) + 2 ^ (970 : ℤ) := by
    have half : (1 / 2 : ℚ) = 2 ^ (-1 : ℤ) := by norm_num
    rw [add_mul, power, half, ← two_zpow_add]
    rfl
  obtain ⟨sign, size, rounds, packed⟩ := exists_add firstSized secondSized
  have total : |signedSize firstSign firstSize + signedSize secondSign secondSize| ≤
      2 ^ (1023 : ℤ) + 2 ^ (970 : ℤ) := by
    refine (abs_add_le _ _).trans ?_
    rw [abs_signedSize _ firstSized.hasSize.nonneg, abs_signedSize _ secondSized.hasSize.nonneg]
    exact add_le_add bounded small
  rw [← middle] at total
  have reached := rounds.le_of_high isMantissa total fun _ => rfl
  rw [power] at reached
  exact ⟨sign, size, packed.sized (reached.trans_lt (zpow_lt_zpow_right₀ (by norm_num) (by decide))),
    reached⟩

/-- So a sum of small values stays finite from the left to the right. -/
theorem isFinite_sum {values : List Float}
    (small : ∀ value ∈ values, value.isFinite = true ∧ size value ≤ 2 ^ (970 : ℤ)) :
    (values.foldl (· + ·) 0).isFinite = true := by
  suffices running : ∀ start : Float, (∃ sign size, IsSized sign size start ∧
      size ≤ 2 ^ (1023 : ℤ)) → (values.foldl (· + ·) start).isFinite = true by
    apply running
    exact ⟨_, _, isSized_toFloat (by decide : 0 < 2 ^ 53), by simp⟩
  induction values with
  | nil =>
      rintro start ⟨_, _, sized, _⟩
      exact sized.isFinite
  | cons value rest inductionHypothesis =>
      rintro start ⟨_, _, sized, bounded⟩
      obtain ⟨finite, few⟩ := small value List.mem_cons_self
      apply inductionHypothesis fun other member => small other (List.mem_cons_of_mem value member)
      exact exists_small_add sized (isSized_size finite) bounded few

end Sums

end LightList.Decimal
