/-
This file says which float a numeral is read as, if its digits fit the reader's integers.

Such a numeral loses no digit: its digits before and after the point are one significand, and the
point and the exponent are one power of ten.
-/

import LightList.Proofs.Json.NumeralReading

namespace LightList.Json

/-- The first digit is where the value begins. -/
theorem digitsValue_cons (byte : UInt8) (digits : List UInt8) :
    digitsValue 0 (byte :: digits) = digitsValue (digitValue byte) digits := by
  rw [digitsValue, List.foldl_cons, Nat.zero_mul, Nat.zero_add]
  rfl

def Exponent.value (exponent : Exponent) : Int :=
  if exponent.sign = [minus] then -digitsValue 0 exponent.digits.bytes
  else digitsValue 0 exponent.digits.bytes

namespace Numeral

def fractionDigits (numeral : Numeral) : List UInt8 :=
  (numeral.fraction.map Digits.bytes).getD []

/-- All digits form one number. -/
def significand (numeral : Numeral) : Nat := digitsValue numeral.magnitude numeral.fractionDigits

/-- This is the power of ten of the last digit. -/
def scale (numeral : Numeral) : Int :=
  (numeral.exponent.map Exponent.value).getD 0 - numeral.fractionDigits.length

/-- The numeral is no integer, and the reader holds all its digits. -/
structure Fits (numeral : Numeral) : Prop where
  notIntegral : ¬ numeral.IsIntegral
  digits : numeral.significand < Reader.significandLimit
  exponent : ∀ exponent ∈ numeral.exponent,
    digitsValue 0 exponent.digits.bytes < Reader.exponentLimit

end Numeral

namespace Reader

/-- Digits that fit together are all collected. -/
theorem outcome?_collected_of_lt {limit value : Nat} {digits rest : List UInt8}
    (areDigits : digits.all isDigit = true) (fits : digitsValue value digits < limit)
    (ended : rest.head?.any isDigit = false) :
    outcome? (collected limit value) (digits ++ rest) =
      some ((digitsValue value digits, digits.length), rest) := by
  obtain ⟨kept, dropped, split, large, collects⟩ := collect_digits limit value 0 areDigits
  have whole : dropped = [] := by
    by_contra tooMany
    exact absurd (large tooMany) (Nat.not_le.2 fits)
  rw [whole, List.append_nil] at split
  have collected := outcome?_collected (collects rest ended)
  rw [whole, ← split] at collected
  exact collected

section Parts

variable (negative : Bool) (significand : Nat) (start : Int) {rest : List UInt8}

/-- An exponent that fits is added to the scale. -/
theorem outcome?_exponentPart {exponent : Exponent}
    (fits : digitsValue 0 exponent.digits.bytes < exponentLimit) (delimited : Delimited rest) :
    outcome? (exponentPart negative significand start) (exponent.bytes ++ rest) =
      (Decimal.scaled? significand.toUInt64 (start + exponent.value)).map fun value =>
        (signed negative value, rest) := by
  obtain ⟨byte, more, written, isDigit, areDigits⟩ := exponent.digits.exists_cons
  rw [written, digitsValue_cons] at fits
  have collects := outcome?_collected_of_lt areDigits fits delimited.noDigit
  have total : (if decide (exponent.sign = [minus]) = true then
      start - digitsValue (digitValue byte) more
      else start + digitsValue (digitValue byte) more) = start + exponent.value := by
    rw [Exponent.value, written, digitsValue_cons]
    by_cases isMinus : exponent.sign = [minus]
    · rw [if_pos (decide_eq_true isMinus), if_pos isMinus, Int.sub_eq_add_neg]
    · rw [decide_eq_false isMinus, if_neg Bool.false_ne_true, if_neg isMinus]
  rw [← total, ← outcome?_scaledFloat]
  simp only [exponentPart, Exponent.bytes, outcome?_bind, outcome?_skipByte, Option.bind_some,
    List.cons_append, List.append_assoc, List.tail_cons, written,
    outcome?_exponentSign exponent written, outcome?_peek, List.head?_cons, isDigit,
    if_true, collects, outcome?_atDigit, delimited.noDigit, if_neg Bool.false_ne_true]

/-- An exponent that is absent adds nothing to the scale. -/
theorem outcome?_exponentOrEnd {exponent : Option Exponent}
    (fits : ∀ part ∈ exponent, digitsValue 0 part.digits.bytes < exponentLimit)
    (delimited : Delimited rest) :
    outcome? (exponentOrEnd negative significand start)
        (Numeral.exponentBytes exponent ++ rest) =
      (Decimal.scaled? significand.toUInt64
        (start + (exponent.map Exponent.value).getD 0)).map fun value =>
          (signed negative value, rest) := by
  cases exponent with
  | none =>
      rw [exponentOrEnd, outcome?_bind, outcome?_peek, Option.bind_some, Numeral.exponentBytes,
        List.nil_append, delimited.noMark, if_neg Bool.false_ne_true, outcome?_scaledFloat,
        Option.map_none, Option.getD_none, Int.add_zero]
  | some exponent =>
      have marked : (exponent.bytes ++ rest).head?.any isExponentMark = true := exponent.isMark
      rw [exponentOrEnd, outcome?_bind, outcome?_peek, Option.bind_some, Numeral.exponentBytes,
        if_pos marked]
      exact outcome?_exponentPart negative significand start (fits exponent rfl) delimited

/-- The digits of a fraction lengthen the significand and lower the scale. -/
theorem outcome?_fractionPart (digits : Digits) {exponent : Option Exponent}
    (digitsFit : digitsValue significand digits.bytes < significandLimit)
    (fits : ∀ part ∈ exponent, digitsValue 0 part.digits.bytes < exponentLimit)
    (delimited : Delimited rest) :
    outcome? (fractionPart negative significand start)
        (point :: (digits.bytes ++ (Numeral.exponentBytes exponent ++ rest))) =
      (Decimal.scaled? (digitsValue significand digits.bytes).toUInt64
        (start - digits.bytes.length + (exponent.map Exponent.value).getD 0)).map fun value =>
          (signed negative value, rest) := by
  obtain ⟨byte, more, written, isDigit, _⟩ := digits.exists_cons
  have ended := exponentBytes_noDigit exponent delimited
  have begins :
      (digits.bytes ++ (Numeral.exponentBytes exponent ++ rest)).head? = some byte := by
    rw [written]
    rfl
  have collects := outcome?_collected_of_lt digits.areDigits digitsFit ended
  have noDigits : ([] : List UInt8).all Json.isDigit = true := rfl
  have passed : (Numeral.exponentBytes exponent ++ rest).dropWhile Json.isDigit =
      Numeral.exponentBytes exponent ++ rest := dropWhile_digits noDigits ended
  rw [← outcome?_exponentOrEnd negative _ _ fits delimited]
  simp only [fractionPart, outcome?_bind, outcome?_skipByte, Option.bind_some, List.tail_cons,
    outcome?_peek, begins, isDigit, if_true, collects, outcome?_skipDigits, passed]

/-- All digits before the point were collected, and the number goes on as a float. -/
theorem outcome?_afterDigits {fraction : Option Digits} {exponent : Option Exponent}
    (isFloat : ¬ (fraction = none ∧ exponent = none))
    (digitsFit : digitsValue significand ((fraction.map Digits.bytes).getD []) < significandLimit)
    (fits : ∀ part ∈ exponent, digitsValue 0 part.digits.bytes < exponentLimit)
    (delimited : Delimited rest) :
    outcome? (afterDigits negative significand)
        (Numeral.fractionBytes fraction ++ (Numeral.exponentBytes exponent ++ rest)) =
      (Decimal.scaled? (digitsValue significand ((fraction.map Digits.bytes).getD [])).toUInt64
        ((exponent.map Exponent.value).getD 0 - ((fraction.map Digits.bytes).getD []).length)).map
          fun value => (.float (signed negative value), rest) := by
  have noDigits : ([] : List UInt8).all isDigit = true := rfl
  have counted : outcome? countDigits
      (Numeral.fractionBytes fraction ++ (Numeral.exponentBytes exponent ++ rest)) =
        some (0, Numeral.fractionBytes fraction ++ (Numeral.exponentBytes exponent ++ rest)) :=
    outcome?_countDigits noDigits (fractionBytes_noDigit fraction exponent delimited)
  rw [afterDigits, outcome?_bind, counted, Option.bind_some, outcome?_bind, outcome?_peek,
    Option.bind_some]
  cases fraction with
  | some digits =>
      have marked : (Numeral.fractionBytes (some digits) ++
          (Numeral.exponentBytes exponent ++ rest)).head? = some point := rfl
      have read := outcome?_fractionPart negative significand 0 digits digitsFit fits delimited
      rw [if_pos marked, outcome?_map]
      refine (congrArg (Option.map _) read).trans ?_
      rw [Option.map_map, Int.zero_sub, Int.add_comm, ← Int.sub_eq_add_neg]
      rfl
  | none =>
      cases exponent with
      | none => exact (isFloat ⟨rfl, rfl⟩).elim
      | some exponent =>
          have marked : (exponent.bytes ++ rest).head?.any isExponentMark = true :=
            exponent.isMark
          have notPoint : (exponent.bytes ++ rest).head? ≠ some point := by
            intro isPoint
            rw [isPoint] at marked
            cases marked
          have read :=
            outcome?_exponentPart negative significand 0 (fits exponent rfl) delimited
          rw [Numeral.fractionBytes, List.nil_append, Numeral.exponentBytes, if_neg notPoint,
            if_pos marked, outcome?_map]
          refine (congrArg (Option.map _) read).trans ?_
          rw [Option.map_map, Int.zero_add]
          exact congrArg (fun exponent : Int => (Decimal.scaled? significand.toUInt64 exponent).map
            fun value => (Number.float (signed negative value), rest)) (Int.sub_zero _).symm

end Parts

/-- A numeral whose digits fit is read as its significand scaled by its power of ten. -/
theorem outcome?_number_of_fits {numeral : Numeral} (fits : numeral.Fits) {rest : List UInt8}
    (delimited : Delimited rest) :
    outcome? number (numeral.bytes ++ rest) =
      (Decimal.scaled? numeral.significand.toUInt64 numeral.scale).map fun value =>
        (.float (signed numeral.isNegative value), rest) := by
  obtain ⟨kept, dropped, split, large, read⟩ := unsigned_digits numeral.isNegative numeral
  have whole : dropped = [] := by
    by_contra tooMany
    have grown : numeral.magnitude ≤ numeral.significand := le_digitsValue _ _
    exact absurd ((large tooMany).trans grown) (Nat.not_le.2 fits.digits)
  rw [whole, List.append_nil] at split
  rw [outcome?_number_sign, read _ (fractionBytes_noDigit _ _ delimited), whole, List.nil_append,
    ← split]
  apply outcome?_afterDigits _ _ _ fits.digits fits.exponent delimited
  rintro ⟨noFraction, noExponent⟩
  exact fits.notIntegral ⟨Option.isNone_iff_eq_none.2 noFraction,
    Option.isNone_iff_eq_none.2 noExponent⟩

/-- A numeral whose digits and exponent fit is read by scaling its significand. -/
theorem float?_of_fits {numeral : Numeral} (fits : numeral.Fits) :
    float? numeral =
      (Decimal.scaled? numeral.significand.toUInt64 numeral.scale).map
        (signed numeral.isNegative) := by
  have opened : outcome? float ([] ++ (numeral.bytes ++ [])) =
      (outcome? number (numeral.bytes ++ [])).bind fun result =>
        outcome? (pure (floatOfNumber result.1)) result.2 := outcome?_numberAs _ _ numeral rfl
  rw [outcome?_number_of_fits fits .nil, List.nil_append, List.append_nil] at opened
  rw [float?, opened]
  cases Decimal.scaled? numeral.significand.toUInt64 numeral.scale with
  | none => rfl
  | some value => rfl

end Reader

end LightList.Json
