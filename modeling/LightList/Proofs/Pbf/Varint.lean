/-
This file writes numbers as varints and shows that they are read back.

A signed number is first turned into an unsigned one, either by its lowest 64 bits or by putting its
sign into the lowest bit.
-/

import LightList.Pbf.Wire

namespace LightList.Pbf

/-- Seven bits stand in each byte, the lowest first, and all bytes but the last are marked. -/
def varint (value : Nat) : List UInt8 :=
  if value < 128 then [value.toUInt8] else (value % 128 + 128).toUInt8 :: varint (value / 128)
termination_by value
decreasing_by omega

/-- A number below 128 is one byte. -/
theorem varint_short {value : Nat} (short : value < 128) : varint value = [value.toUInt8] := by
  rw [varint, if_pos short]

/-- A larger number has a byte with its lowest seven bits before the others. -/
theorem varint_long {value : Nat} (long : 128 ≤ value) :
    varint value = (value % 128 + 128).toUInt8 :: varint (value / 128) := by
  rw [varint, if_neg (Nat.not_lt.2 long)]

theorem length_varint_pos (value : Nat) : 0 < (varint value).length := by
  by_cases short : value < 128
  · rw [varint_short short]
    exact Nat.one_pos
  · rw [varint_long (Nat.not_lt.1 short)]
    exact Nat.succ_pos _

/-- Each byte more makes room for seven bits. -/
theorem length_varint_le {limit value : Nat} (fits : value < Nat.pow 128 (limit + 1)) :
    (varint value).length ≤ limit + 1 := by
  induction limit generalizing value with
  | zero =>
      rw [varint_short (by simpa using fits)]
      exact Nat.le_refl 1
  | succ limit inductionHypothesis =>
      by_cases short : value < 128
      · rw [varint_short short]
        exact Nat.le_add_left 1 _
      · have less : value / 128 < Nat.pow 128 (limit + 1) := by
          change value < Nat.pow 128 (limit + 1) * 128 at fits
          exact Nat.div_lt_of_lt_mul (by omega)
        have later := inductionHypothesis less
        rw [varint_long (Nat.not_lt.1 short), List.length_cons]
        omega

/-- Ten bytes hold 64 bits. -/
theorem length_varint_le_ten {value : Nat} (fits : value < Nat.pow 2 64) :
    (varint value).length ≤ 10 :=
  length_varint_le (Nat.lt_trans fits (by decide : Nat.pow 2 64 < Nat.pow 128 (9 + 1)))

/-- The first bytes of a varint give its value if they are all there, and end too early if not. -/
theorem varintOf_take {limit value : Nat} (fits : (varint value).length ≤ limit) (count : Nat)
    (rest : List UInt8) :
    Wire.varintOf limit ((varint value ++ rest).take count) =
      if (varint value).length ≤ count then .ok (value, (varint value).length)
      else .error .unfinished := by
  induction value using Nat.strongRecOn generalizing limit count with
  | ind value inductionHypothesis =>
      obtain ⟨limit, rfl⟩ : ∃ less, limit = less + 1 :=
        Nat.exists_eq_succ_of_ne_zero (by have := length_varint_pos value; omega)
      by_cases short : value < 128
      · have isLast : value.toUInt8 < 0x80 := by
          rw [UInt8.lt_iff_toNat_lt]
          simp
          omega
        have same : value.toUInt8.toNat = value := by
          simp
          omega
        rw [varint_short short]
        cases count with
        | zero => simp [Wire.varintOf]
        | succ count => simp [Wire.varintOf, isLast, same]
      · have notLast : ¬ (value % 128 + 128).toUInt8 < 0x80 := by
          rw [UInt8.lt_iff_toNat_lt]
          simp
          omega
        have same : (value % 128 + 128).toUInt8.toNat = value % 128 + 128 := by
          simp
          omega
        rw [varint_long (Nat.not_lt.1 short)] at fits ⊢
        rw [List.length_cons] at fits ⊢
        cases count with
        | zero => simp [Wire.varintOf]
        | succ count =>
            have later := inductionHypothesis (value / 128) (by omega)
              (Nat.le_of_succ_le_succ fits) count
            rw [List.cons_append, List.take_succ_cons, Wire.varintOf, if_neg notLast, later, same]
            by_cases whole : (varint (value / 128)).length ≤ count
            · simp only [if_pos whole, if_pos (Nat.succ_le_succ whole)]
              congr 2
              omega
            · rw [if_neg whole, if_neg (by omega)]

/-- The bytes of a number are read back, with their count. -/
theorem varintOf_varint {limit value : Nat} (fits : (varint value).length ≤ limit)
    (rest : List UInt8) :
    Wire.varintOf limit (varint value ++ rest) = .ok (value, (varint value).length) := by
  have whole := varintOf_take fits (varint value ++ rest).length rest
  rwa [List.take_length, if_pos (by simp)] at whole

example : varint 300 = [0xAC, 0x02] := by decide +kernel

/-- The number is one of 64 bits with a sign. -/
def FitsLong (value : Int) : Prop := -Int.ofNat (Nat.pow 2 63) ≤ value ∧ value < Nat.pow 2 63

instance (value : Int) : Decidable (FitsLong value) := inferInstanceAs (Decidable (_ ∧ _))

/-- Every signed number of 64 bits fits. -/
theorem fitsLong_toInt (value : Int64) : FitsLong value.toInt :=
  ⟨value.le_toInt, value.toInt_lt⟩

/-- The sign goes into the lowest bit. -/
def zigzagCode (value : Int) : Nat := if 0 ≤ value then value.toNat * 2 else (-value).toNat * 2 - 1

/-- These are the lowest 64 bits of a number in two's complement. -/
def lowBits (value : Int) : Nat := (value % Nat.pow 2 64).toNat

/-- The code has one bit more than the number without its sign. -/
theorem zigzagCode_lt_double {value : Int} {bound : Nat} (low : -Int.ofNat bound ≤ value)
    (high : value < bound) : zigzagCode value < 2 * bound := by
  rw [Int.ofNat_eq_natCast] at low
  unfold zigzagCode
  split <;> omega

/-- The code of a number that fits has 64 bits. -/
theorem zigzagCode_lt {value : Int} (fits : FitsLong value) : zigzagCode value < Nat.pow 2 64 :=
  zigzagCode_lt_double fits.1 fits.2

/-- The code of a number of 32 bits has 32 bits. -/
theorem zigzagCode_toInt_lt (value : Int32) : zigzagCode value.toInt < Nat.pow 2 32 :=
  zigzagCode_lt_double value.le_toInt value.toInt_lt

theorem lowBits_lt (value : Int) : lowBits value < Nat.pow 2 64 := by
  unfold lowBits
  simp only [Nat.pow_eq]
  omega

/-- The low bits give the signed number back. -/
theorem toInt64_lowBits (value : Int) : (lowBits value).toUInt64.toInt64 = Int64.ofInt value := by
  apply Int64.toInt_inj.1
  change (UInt64.ofNat (value % Nat.pow 2 64).toNat).toInt64.toInt = _
  rw [UInt64.toInt64_ofNat', ← Int64.ofInt_eq_ofNat, Int64.toInt_ofInt, Int64.toInt_ofInt,
    Int.toNat_of_nonneg (by simp only [Nat.pow_eq]; omega)]
  exact Int.emod_bmod value _

/-- A small number is its own lowest bits. -/
theorem lowBits_ofNat {value : Nat} (fits : value < Nat.pow 2 31) :
    lowBits (Int32.ofNat value).toInt = value := by
  rw [Int32.toInt_ofNat_of_lt fits, lowBits]
  simp only [Nat.pow_eq] at fits ⊢
  omega

theorem toNat_toUInt64 {value : Nat} (fits : value < Nat.pow 2 64) :
    value.toUInt64.toNat = value := by
  simpa using fits

/-- A number below the sign bit has no sign. -/
theorem ofNat_nonneg {value : Nat} (short : value < Nat.pow 2 31) : ¬ Int32.ofNat value < 0 := by
  rw [Int32.lt_iff_toInt_lt, Int32.toInt_ofNat_of_lt short]
  exact Int.not_lt.2 (Int.natCast_nonneg value)

theorem ofNat_ne_zero {value : Nat} (short : value < Nat.pow 2 31) (positive : value ≠ 0) :
    Int32.ofNat value ≠ 0 := by
  intro zero
  have same : (Int32.ofNat value).toInt = value := Int32.toInt_ofNat_of_lt short
  rw [zero] at same
  exact positive (Int.natCast_eq_zero.1 same.symm)

/-- Halving the code drops the bit of the sign. -/
theorem zigzag_zigzagCode {value : Int} (fits : FitsLong value) :
    Wire.zigzag (zigzagCode value).toUInt64 = Int64.ofInt value := by
  have below := zigzagCode_lt fits
  have same := toNat_toUInt64 below
  have half : ((zigzagCode value).toUInt64 >>> 1).toInt64 = Int64.ofNat (zigzagCode value / 2) := by
    rw [← UInt64.toInt64_ofNat']
    congr 1
    apply UInt64.toNat_inj.1
    rw [UInt64.toNat_shiftRight, same]
    simp [Nat.shiftRight_eq_div_pow]
    simp at below
    omega
  have sign : (zigzagCode value).toUInt64 &&& 1 = 0 ↔ zigzagCode value % 2 = 0 := by
    rw [← UInt64.toNat_inj, UInt64.toNat_and, same]
    simp [Nat.and_one_is_mod]
  unfold Wire.zigzag
  simp only [half, sign]
  unfold zigzagCode
  by_cases positive : 0 ≤ value
  · simp only [if_pos positive, Nat.mul_mod_left, if_true]
    rw [Nat.mul_div_cancel _ (by decide : 0 < 2), ← Int64.ofInt_eq_ofNat,
      Int.toNat_of_nonneg positive]
  · rw [if_neg positive, if_neg (by omega), ← Int64.ofInt_eq_ofNat, ← Int64.ofInt_neg]
    change _ - Int64.ofInt 1 = _
    rw [← Int64.ofInt_sub]
    congr 1
    omega

end LightList.Pbf
