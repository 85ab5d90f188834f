/-
This file says which numerals are identifiers, by the number that a numeral stands for.

The reader collects digits as long as they fit, and its limits are checked one after the other; here
an identifier is any whole number of 64 bits that is written without fraction and exponent.
-/

import LightList.Proofs.Json.PrintedNumbers
import Mathlib.Algebra.Field.Rat
import Mathlib.Data.Rat.Cast.Order
import Mathlib.Tactic.NormNum

namespace LightList.Json.Numeral

/-- This is the number that the numeral stands for. -/
def value (numeral : Numeral) : ℚ :=
  (if numeral.isNegative then -1 else 1) * (numeral.significand * 10 ^ numeral.scale)

/-- An identifier has neither fraction nor exponent, it is not minus zero, and 64 bits hold it. -/
structure IsId (numeral : Numeral) : Prop where
  noFraction : numeral.fraction = none
  noExponent : numeral.exponent = none
  notMinusZero : numeral.bytes ≠ [minus, zero]
  least : -2 ^ 63 ≤ numeral.value
  greatest : numeral.value ≤ 2 ^ 63 - 1

variable {numeral : Numeral}

/-- An integral numeral has neither a fraction nor an exponent. -/
theorem isIntegral_iff :
    numeral.IsIntegral ↔ numeral.fraction = none ∧ numeral.exponent = none := by
  rw [IsIntegral, Option.isNone_iff_eq_none, Option.isNone_iff_eq_none]

/-- Without fraction and exponent the digits before the point are all there is. -/
theorem value_of_isIntegral (isIntegral : numeral.IsIntegral) :
    numeral.value = numeral.toInt := by
  obtain ⟨noFraction, noExponent⟩ := isIntegral_iff.1 isIntegral
  have noDigits : numeral.fractionDigits = [] := by
    rw [fractionDigits, noFraction]
    rfl
  have whole : numeral.significand = numeral.magnitude := by
    rw [significand, noDigits]
    rfl
  have unscaled : numeral.scale = 0 := by
    rw [scale, noDigits, noExponent]
    rfl
  rw [value, whole, unscaled, zpow_zero, mul_one, toInt]
  cases numeral.isNegative <;> simp

/-- A leading zero stands alone, so zero is written in one way. -/
theorem whole_of_magnitude_eq_zero (isZero : numeral.magnitude = 0) :
    numeral.whole.bytes = [zero] := by
  obtain ⟨byte, more, written, isDigit, -⟩ := numeral.whole.exists_cons
  apply numeral.zeroAlone
  rw [magnitude, written, digitsValue_cons] at isZero
  have noValue : byte.toNat - zero.toNat ≤ 0 := isZero ▸ le_digitsValue (digitValue byte) more
  simp only [Json.isDigit, Bool.and_eq_true, decide_eq_true_eq, UInt8.le_iff_toNat_le] at isDigit
  have same : byte = zero := UInt8.toNat_inj.1 (by omega)
  rw [written, same, List.head?_cons]

/-- Of the integral numerals minus zero is the one with a sign and without a magnitude. -/
theorem bytes_eq_minusZero_iff (isIntegral : numeral.IsIntegral) :
    numeral.bytes = [minus, zero] ↔ numeral.isNegative = true ∧ numeral.magnitude = 0 := by
  obtain ⟨noFraction, noExponent⟩ := isIntegral_iff.1 isIntegral
  have written : numeral.bytes = signBytes numeral.isNegative ++ numeral.whole.bytes := by
    rw [bytes, noFraction, noExponent]
    exact congrArg _ (List.append_nil _)
  rw [written]
  cases numeral.isNegative with
  | true =>
      constructor
      · intro same
        have alone : numeral.whole.bytes = [zero] := (List.cons.inj same).2
        refine ⟨rfl, ?_⟩
        rw [magnitude, alone]
        rfl
      · rintro ⟨-, isZero⟩
        rw [whole_of_magnitude_eq_zero isZero]
        rfl
  | false =>
      constructor
      · intro same
        have areDigits := numeral.whole.areDigits
        change numeral.whole.bytes = _ at same
        rw [same] at areDigits
        cases areDigits
      · rintro ⟨impossible, -⟩
        cases impossible

/-- An identifier is an integral numeral within 64 bits that is not minus zero. -/
theorem isId_iff :
    numeral.IsId ↔ numeral.IsIntegral ∧ (numeral.isNegative = true → numeral.magnitude ≠ 0) ∧
      Int64.minValue.toInt ≤ numeral.toInt ∧ numeral.toInt ≤ Int64.maxValue.toInt := by
  have lowest : Int64.minValue.toInt = -2 ^ 63 := rfl
  have highest : Int64.maxValue.toInt = 2 ^ 63 - 1 := rfl
  rw [lowest, highest]
  constructor
  · rintro ⟨noFraction, noExponent, notMinusZero, least, greatest⟩
    have isIntegral := isIntegral_iff.2 ⟨noFraction, noExponent⟩
    rw [value_of_isIntegral isIntegral] at least greatest
    refine ⟨isIntegral, ?_, by exact_mod_cast least, by exact_mod_cast greatest⟩
    intro isNegative isZero
    exact notMinusZero ((bytes_eq_minusZero_iff isIntegral).2 ⟨isNegative, isZero⟩)
  · rintro ⟨isIntegral, nonzero, least, greatest⟩
    obtain ⟨noFraction, noExponent⟩ := isIntegral_iff.1 isIntegral
    refine ⟨noFraction, noExponent, ?_, ?_, ?_⟩
    · intro same
      obtain ⟨isNegative, isZero⟩ := (bytes_eq_minusZero_iff isIntegral).1 same
      exact nonzero isNegative isZero
    · rw [value_of_isIntegral isIntegral]
      exact_mod_cast least
    · rw [value_of_isIntegral isIntegral]
      exact_mod_cast greatest

/-- The numeral of an identifier is read as the number that it stands for. -/
theorem IsId.exists_int64? (isId : numeral.IsId) :
    ∃ id : Int64, numeral.int64? = some id ∧ (id.toInt : ℚ) = numeral.value := by
  have conditions := isId_iff.1 isId
  have highest : Int64.maxValue.toInt = 2 ^ 63 - 1 := rfl
  have ⟨isIntegral, _, least, greatest⟩ := conditions
  refine ⟨Int64.ofInt numeral.toInt, if_pos conditions, ?_⟩
  rw [value_of_isIntegral isIntegral, Int64.toInt_ofInt_of_le least (by omega)]

/-- No other numeral is read as an identifier. -/
theorem int64?_of_not_isId (other : ¬ numeral.IsId) : numeral.int64? = none :=
  if_neg fun conditions => other (isId_iff.2 conditions)

/-- An identifier is printed as the numeral of its own number. -/
theorem isId_ofInt (id : Int64) : (ofInt id.toInt).IsId ∧ (ofInt id.toInt).value = id.toInt := by
  have isIntegral : (ofInt id.toInt).IsIntegral := ⟨rfl, rfl⟩
  constructor
  · by_contra other
    have read := int64?_ofInt id
    rw [int64?_of_not_isId other] at read
    cases read
  · rw [value_of_isIntegral isIntegral, toInt_ofInt]

end LightList.Json.Numeral
