/-
This file shows what the readers of numbers make of a numeral.

A number has no closing mark, so what follows it must not carry it on. Everything that may follow a
value in a document is of that kind, and what is read depends on the numeral alone.
-/

import LightList.Proofs.Json.Outcome

namespace LightList.Json

theorem isBlank_of_isDigit {byte : UInt8} (digit : isDigit byte = true) :
    isBlank byte = false := by
  cases blank : isBlank byte with
  | false => rfl
  | true =>
      simp only [isBlank, Bool.or_eq_true, beq_iff_eq] at blank
      rcases blank with ((rfl | rfl) | rfl) | rfl <;> exact absurd digit (by decide)

/-- A value ends at a blank, at a comma, at a closing bracket or at the end of the document. -/
def Delimited (rest : List UInt8) : Prop :=
  ∀ byte ∈ rest.head?,
    isBlank byte = true ∨ byte = comma ∨ byte = closeBracket ∨ byte = closeBrace

namespace Delimited

theorem nil : Delimited [] := by
  intro byte member
  cases member

/-- None of the bytes that may follow a value belongs to a number. -/
theorem outside {rest : List UInt8} (delimited : Delimited rest) {byte : UInt8}
    (isHead : rest.head? = some byte) :
    isDigit byte = false ∧ byte ≠ point ∧ isExponentMark byte = false := by
  rcases delimited byte isHead with blank | rfl | rfl | rfl
  · simp only [isBlank, Bool.or_eq_true, beq_iff_eq] at blank
    rcases blank with ((rfl | rfl) | rfl) | rfl <;> decide
  · decide
  · decide
  · decide

theorem noDigit {rest : List UInt8} (delimited : Delimited rest) :
    rest.head?.any isDigit = false := by
  cases isHead : rest.head? with
  | none => rfl
  | some byte => exact (delimited.outside isHead).1

theorem noPoint {rest : List UInt8} (delimited : Delimited rest) : rest.head? ≠ some point := by
  intro isPoint
  exact (delimited.outside isPoint).2.1 rfl

theorem noMark {rest : List UInt8} (delimited : Delimited rest) :
    rest.head?.any isExponentMark = false := by
  cases isHead : rest.head? with
  | none => rfl
  | some byte => exact (delimited.outside isHead).2.2

end Delimited

/-- The digits are passed up to what is no digit. -/
theorem dropWhile_digits {digits rest : List UInt8} (areDigits : digits.all isDigit = true)
    (ended : rest.head?.any isDigit = false) : (digits ++ rest).dropWhile isDigit = rest := by
  rw [List.dropWhile_append_of_pos (List.all_eq_true.1 areDigits)]
  cases rest with
  | nil => rfl
  | cons byte more => exact List.dropWhile_cons_of_neg (by simpa using ended)

/-- The digits are taken up to what is no digit. -/
theorem takeWhile_digits {digits rest : List UInt8} (areDigits : digits.all isDigit = true)
    (ended : rest.head?.any isDigit = false) : (digits ++ rest).takeWhile isDigit = digits := by
  rw [List.takeWhile_append_of_pos (List.all_eq_true.1 areDigits)]
  cases rest with
  | nil => exact List.append_nil digits
  | cons byte more =>
      rw [List.takeWhile_cons_of_neg (by simpa using ended), List.append_nil]

/-- Further digits never make a value smaller. -/
theorem le_digitsValue (value : Nat) (digits : List UInt8) : value ≤ digitsValue value digits := by
  induction digits generalizing value with
  | nil => exact Nat.le_refl value
  | cons byte rest inductionHypothesis =>
      have further := inductionHypothesis (value * 10 + digitValue byte)
      change value ≤ digitsValue (value * 10 + digitValue byte) rest
      omega

/-- Digits are not empty, so one of them is next. -/
theorem Digits.exists_cons (digits : Digits) :
    ∃ byte rest, digits.bytes = byte :: rest ∧ isDigit byte = true ∧
      rest.all isDigit = true := by
  cases written : digits.bytes with
  | nil => exact (digits.nonempty written).elim
  | cons byte rest =>
      have areDigits := digits.areDigits
      rw [written, List.all_cons, Bool.and_eq_true] at areDigits
      exact ⟨byte, rest, rfl, areDigits⟩

namespace Numeral

/-- An integer is written without fraction and exponent. -/
def IsIntegral (numeral : Numeral) : Prop :=
  numeral.fraction.isNone = true ∧ numeral.exponent.isNone = true

instance (numeral : Numeral) : Decidable numeral.IsIntegral :=
  inferInstanceAs (Decidable (_ ∧ _))

def toInt (numeral : Numeral) : Int :=
  if numeral.isNegative then -numeral.magnitude else numeral.magnitude

/-- This is the integer of 64 bits that the numeral writes; minus zero is none. -/
def int64? (numeral : Numeral) : Option Int64 :=
  if numeral.IsIntegral ∧ (numeral.isNegative = true → numeral.magnitude ≠ 0) ∧
      Int64.minValue.toInt ≤ numeral.toInt ∧ numeral.toInt ≤ Int64.maxValue.toInt then
    some (Int64.ofInt numeral.toInt)
  else none

/-- A numeral begins with its sign or with a digit. -/
theorem bytes_eq_cons (numeral : Numeral) :
    ∃ byte more, numeral.bytes = byte :: more ∧ (byte = minus ∨ isDigit byte = true) := by
  obtain ⟨byte, more, written, isDigit, _⟩ := numeral.whole.exists_cons
  unfold bytes
  rw [written]
  cases numeral.isNegative with
  | false => exact ⟨byte, _, rfl, .inr isDigit⟩
  | true => exact ⟨minus, _, rfl, .inl rfl⟩

end Numeral

namespace Reader

/-- Digits are left out only if all of them together do not fit. -/
theorem collect_digits (limit value count : Nat) {digits : List UInt8}
    (areDigits : digits.all isDigit = true) :
    ∃ kept dropped, digits = kept ++ dropped ∧
      (dropped ≠ [] → limit ≤ digitsValue value digits) ∧
      ∀ rest, rest.head?.any isDigit = false →
        collect limit value count (digits ++ rest) =
          ⟨digitsValue value kept, count + kept.length, dropped ++ rest⟩ := by
  induction digits generalizing value count with
  | nil =>
      apply Exists.intro []
      apply Exists.intro []
      refine ⟨rfl, fun impossible => (impossible rfl).elim, ?_⟩
      intro rest ended
      cases rest with
      | nil => rfl
      | cons byte more =>
          have notDigit : ¬ isDigit byte = true := by simpa using ended
          rw [List.nil_append, collect, if_neg fun joins => notDigit joins.1]
          rfl
  | cons byte rest inductionHypothesis =>
      rw [List.all_cons, Bool.and_eq_true] at areDigits
      by_cases fits : value * 10 + digitValue byte < limit
      · obtain ⟨kept, dropped, split, large, read⟩ :=
          inductionHypothesis (value * 10 + digitValue byte) (count + 1) areDigits.2
        refine ⟨byte :: kept, dropped, by rw [split, List.cons_append], large, ?_⟩
        intro more ended
        rw [List.cons_append, collect, if_pos ⟨areDigits.1, fits⟩, read more ended,
          List.length_cons, Nat.add_assoc, Nat.add_comm 1]
        rfl
      · refine ⟨[], byte :: rest, rfl, ?_, ?_⟩
        · intro _
          have grown := le_digitsValue (value * 10 + digitValue byte) rest
          change limit ≤ digitsValue (value * 10 + digitValue byte) rest
          omega
        · intro more _
          rw [List.cons_append, collect, if_neg fun joins => fits joins.2]
          rfl

/-- What the reader makes of these bytes does not depend on what follows them. -/
def Settles {Value : Type} (reader : Reader Value) (bytes : List UInt8) : Prop :=
  ∃ value? : Option Value, ∀ rest, Delimited rest →
    outcome? reader (bytes ++ rest) = value?.map fun value => (value, rest)

/-- Scaling reads nothing, and it fails where the float would be infinite. -/
theorem outcome?_scaledFloat (negative : Bool) (significand : Nat) (exponent : Int)
    (input : List UInt8) :
    outcome? (scaledFloat negative significand exponent) input =
      (Decimal.scaled? significand.toUInt64 exponent).map fun value =>
        (signed negative value, input) := by
  unfold scaledFloat
  cases Decimal.scaled? significand.toUInt64 exponent with
  | none => rfl
  | some value => rfl

/-- Scaling looks at none of the bytes behind it. -/
theorem scaledFloat_settles (negative : Bool) (significand : Nat) (exponent : Int) :
    Settles (scaledFloat negative significand exponent) [] := by
  apply Exists.intro ((Decimal.scaled? significand.toUInt64 exponent).map (signed negative))
  intro rest _
  rw [List.nil_append, outcome?_scaledFloat, Option.map_map]
  rfl

/-- The sign of an exponent is taken, and then its digits are next. -/
theorem outcome?_exponentSign (exponent : Exponent) {byte : UInt8} {more : List UInt8}
    (written : exponent.digits.bytes = byte :: more) (rest : List UInt8) :
    outcome? exponentSign (exponent.sign ++ byte :: rest) =
      some (decide (exponent.sign = [minus]), byte :: rest) := by
  have areDigits := exponent.digits.areDigits
  rw [written, List.all_cons, Bool.and_eq_true] at areDigits
  have notMinus : byte ≠ minus := by
    rintro rfl
    exact absurd areDigits.1 (by decide)
  have notPlus : byte ≠ plus := by
    rintro rfl
    exact absurd areDigits.1 (by decide)
  rcases exponent.isSign with none | isPlus | isMinus
  · simp [none, exponentSign, outcome?_bind, notMinus, notPlus]
  · rw [isPlus]
    rfl
  · rw [isMinus]
    rfl

/-- Digits that do not fit the exponent are taken, unless they make the number too large. -/
theorem exponentOverflow_settles (negative : Bool) (significand : Nat) (below : Bool)
    {digits : List UInt8} (areDigits : digits.all isDigit = true) :
    Settles (exponentOverflow negative significand below) digits := by
  by_cases tooLarge : significand ≠ 0 ∧ below = false
  · apply Exists.intro none
    intro rest _
    rw [exponentOverflow, if_pos tooLarge]
    rfl
  · apply Exists.intro (some (signed negative 0))
    intro rest delimited
    rw [exponentOverflow, if_neg tooLarge, outcome?_bind, outcome?_skipDigits, Option.bind_some,
      dropWhile_digits areDigits delimited.noDigit]
    rfl

/-- After the digits that fit the exponent either no more come or it is too large. -/
theorem afterExponent_settles (negative : Bool) (significand : Nat) (below : Bool)
    (exponent : Int) {dropped : List UInt8} (areDigits : dropped.all isDigit = true) :
    Settles
      (do
        if ← atDigit then exponentOverflow negative significand below
        else scaledFloat negative significand exponent)
      dropped := by
  cases dropped with
  | nil =>
      obtain ⟨value?, read⟩ := scaledFloat_settles negative significand exponent
      apply Exists.intro value?
      intro rest delimited
      rw [outcome?_bind, outcome?_atDigit, Option.bind_some, List.nil_append, delimited.noDigit]
      exact read rest delimited
  | cons byte more =>
      obtain ⟨value?, read⟩ := exponentOverflow_settles negative significand below areDigits
      apply Exists.intro value?
      intro rest delimited
      rw [List.all_cons, Bool.and_eq_true] at areDigits
      rw [outcome?_bind, outcome?_atDigit, Option.bind_some, List.cons_append, List.head?_cons,
        Option.any_some, if_pos areDigits.1]
      exact read rest delimited

/-- The collected digits and their count are given on, and the others are left. -/
theorem outcome?_collected {limit value : Nat} {digits kept dropped rest : List UInt8}
    (read : collect limit value 0 (digits ++ rest) =
      ⟨digitsValue value kept, 0 + kept.length, dropped ++ rest⟩) :
    outcome? (collected limit value) (digits ++ rest) =
      some ((digitsValue value kept, kept.length), dropped ++ rest) := by
  unfold outcome? collected
  rw [read, Nat.zero_add]

/-- An exponent is taken whole, whatever follows it. -/
theorem exponentPart_settles (negative : Bool) (significand : Nat) (start : Int)
    (exponent : Exponent) : Settles (exponentPart negative significand start) exponent.bytes := by
  obtain ⟨byte, more, written, isDigit, areDigits⟩ := exponent.digits.exists_cons
  obtain ⟨kept, dropped, split, _, collects⟩ :=
    collect_digits exponentLimit (digitValue byte) 0 areDigits
  rw [split, List.all_append, Bool.and_eq_true] at areDigits
  obtain ⟨value?, read⟩ := afterExponent_settles negative significand
    (decide (exponent.sign = [minus]))
    (if decide (exponent.sign = [minus]) then start - digitsValue (digitValue byte) kept
      else start + digitsValue (digitValue byte) kept) areDigits.2
  apply Exists.intro value?
  intro rest delimited
  rw [← read rest delimited]
  simp only [exponentPart, Exponent.bytes, outcome?_bind, outcome?_skipByte, Option.bind_some,
    List.cons_append, List.append_assoc, List.tail_cons, written,
    outcome?_exponentSign exponent written, outcome?_peek, List.head?_cons, isDigit,
    if_true, outcome?_collected (collects rest delimited.noDigit)]

/-- A numeral that may have an exponent is taken whole. -/
theorem exponentOrEnd_settles (negative : Bool) (significand : Nat) (start : Int)
    (exponent : Option Exponent) :
    Settles (exponentOrEnd negative significand start) (Numeral.exponentBytes exponent) := by
  cases exponent with
  | none =>
      obtain ⟨value?, read⟩ := scaledFloat_settles negative significand start
      apply Exists.intro value?
      intro rest delimited
      rw [exponentOrEnd, outcome?_bind, outcome?_peek, Option.bind_some, Numeral.exponentBytes,
        List.nil_append, delimited.noMark]
      exact read rest delimited
  | some exponent =>
      obtain ⟨value?, read⟩ := exponentPart_settles negative significand start exponent
      apply Exists.intro value?
      intro rest delimited
      have marked : (exponent.bytes ++ rest).head?.any isExponentMark = true := exponent.isMark
      rw [exponentOrEnd, outcome?_bind, outcome?_peek, Option.bind_some, Numeral.exponentBytes,
        if_pos marked]
      exact read rest delimited

/-- An exponent or what follows the number is no digit. -/
theorem exponentBytes_noDigit (exponent : Option Exponent) {rest : List UInt8}
    (delimited : Delimited rest) :
    (Numeral.exponentBytes exponent ++ rest).head?.any isDigit = false := by
  cases exponent with
  | none => exact delimited.noDigit
  | some exponent =>
      have isMark := exponent.isMark
      simp only [isExponentMark, Bool.or_eq_true, beq_iff_eq] at isMark
      change isDigit exponent.mark = false
      rcases isMark with same | same
      · rw [same]
        rfl
      · rw [same]
        rfl

/-- A fraction is taken whole with the exponent behind it. -/
theorem fractionPart_settles (negative : Bool) (significand : Nat) (start : Int)
    (digits : Digits) (exponent : Option Exponent) :
    Settles (fractionPart negative significand start)
      (point :: (digits.bytes ++ Numeral.exponentBytes exponent)) := by
  obtain ⟨byte, more, written, isDigit, _⟩ := digits.exists_cons
  obtain ⟨kept, dropped, split, _, collects⟩ :=
    collect_digits significandLimit significand 0 digits.areDigits
  have areDigits := digits.areDigits
  rw [split, List.all_append, Bool.and_eq_true] at areDigits
  obtain ⟨value?, read⟩ := exponentOrEnd_settles negative (digitsValue significand kept)
    (start - kept.length) exponent
  apply Exists.intro value?
  intro rest delimited
  have ended := exponentBytes_noDigit exponent delimited
  have begins :
      (digits.bytes ++ (Numeral.exponentBytes exponent ++ rest)).head? = some byte := by
    rw [written]
    rfl
  rw [← read rest delimited]
  simp only [fractionPart, outcome?_bind, outcome?_skipByte, Option.bind_some, List.cons_append,
    List.append_assoc, List.tail_cons, outcome?_peek, begins, isDigit, if_true, outcome?_collected (collects _ ended),
    outcome?_skipDigits, dropWhile_digits areDigits.2 ended]

/-- A point, an exponent or what follows the number is no digit. -/
theorem fractionBytes_noDigit (fraction : Option Digits) (exponent : Option Exponent)
    {rest : List UInt8} (delimited : Delimited rest) :
    (Numeral.fractionBytes fraction ++
      (Numeral.exponentBytes exponent ++ rest)).head?.any isDigit = false := by
  cases fraction with
  | none => exact exponentBytes_noDigit exponent delimited
  | some digits => rfl

/-- The digits are counted and passed. -/
theorem outcome?_countDigits {digits rest : List UInt8} (areDigits : digits.all isDigit = true)
    (ended : rest.head?.any isDigit = false) :
    outcome? countDigits (digits ++ rest) = some (digits.length, rest) := by
  unfold outcome? countDigits
  rw [takeWhile_digits areDigits ended, dropWhile_digits areDigits ended]

/-- A number that goes on as a float is read as one. -/
theorem Settles.float {reader : Reader Float} {bytes : List UInt8}
    (settles : Settles reader bytes) :
    ∃ value? : Option Float, ∀ rest, Delimited rest →
      outcome? (Number.float <$> reader) (bytes ++ rest) =
        value?.map fun value => (.float value, rest) := by
  obtain ⟨value?, read⟩ := settles
  apply Exists.intro value?
  intro rest delimited
  rw [outcome?_map, read rest delimited, Option.map_map]
  rfl

/-- After the digits before the point a number is a float, if it goes on or has too many of them. -/
theorem afterDigits_settles (negative : Bool) (significand : Nat) {dropped : List UInt8}
    (areDigits : dropped.all isDigit = true) (fraction : Option Digits)
    (exponent : Option Exponent)
    (isFloat : fraction = none → exponent = none → dropped ≠ []) :
    ∃ value? : Option Float, ∀ rest, Delimited rest →
      outcome? (afterDigits negative significand)
          (dropped ++ (Numeral.fractionBytes fraction ++
            (Numeral.exponentBytes exponent ++ rest))) =
        value?.map fun value => (.float value, rest) := by
  have counted (rest : List UInt8) (delimited : Delimited rest) :=
    outcome?_countDigits areDigits (fractionBytes_noDigit fraction exponent delimited)
  cases fraction with
  | some digits =>
      obtain ⟨value?, read⟩ :=
        (fractionPart_settles negative significand dropped.length digits exponent).float
      apply Exists.intro value?
      intro rest delimited
      have rejoined :
          Numeral.fractionBytes (some digits) ++ (Numeral.exponentBytes exponent ++ rest) =
            point :: (digits.bytes ++ Numeral.exponentBytes exponent) ++ rest := by
        simp only [Numeral.fractionBytes, List.cons_append, List.append_assoc]
      rw [afterDigits, outcome?_bind, counted rest delimited, Option.bind_some, outcome?_bind,
        outcome?_peek, Option.bind_some, rejoined, List.cons_append, List.head?_cons, if_pos rfl]
      exact read rest delimited
  | none =>
      cases exponent with
      | some exponent =>
          obtain ⟨value?, read⟩ :=
            (exponentPart_settles negative significand dropped.length exponent).float
          apply Exists.intro value?
          intro rest delimited
          have marked : (exponent.bytes ++ rest).head?.any isExponentMark = true :=
            exponent.isMark
          have notPoint : (exponent.bytes ++ rest).head? ≠ some point := by
            intro isPoint
            rw [isPoint] at marked
            cases marked
          rw [afterDigits, outcome?_bind, counted rest delimited, Option.bind_some, outcome?_bind,
            outcome?_peek, Option.bind_some, Numeral.fractionBytes, List.nil_append,
            Numeral.exponentBytes, if_neg notPoint, if_pos marked]
          exact read rest delimited
      | none =>
          obtain ⟨value?, read⟩ :=
            (scaledFloat_settles negative significand dropped.length).float
          apply Exists.intro value?
          intro rest delimited
          have tooMany : dropped.length ≠ 0 := by
            intro isEmpty
            exact isFloat rfl rfl (List.eq_nil_of_length_eq_zero isEmpty)
          rw [afterDigits, outcome?_bind, counted rest delimited, Option.bind_some, outcome?_bind,
            outcome?_peek, Option.bind_some, Numeral.fractionBytes, List.nil_append,
            Numeral.exponentBytes, List.nil_append, if_neg delimited.noPoint, delimited.noMark,
            if_neg Bool.false_ne_true, if_neg tooMany]
          exact read rest delimited

/-- Where the numeral ends behind its integral part it is an integer. -/
theorem afterDigits_integer (negative : Bool) (significand : Nat) {rest : List UInt8}
    (delimited : Delimited rest) :
    outcome? (afterDigits negative significand) rest =
      some (integer negative significand, rest) := by
  have counted : outcome? countDigits ([] ++ rest) = some (0, rest) :=
    outcome?_countDigits rfl delimited.noDigit
  rw [List.nil_append] at counted
  rw [afterDigits, outcome?_bind, counted, Option.bind_some, outcome?_bind, outcome?_peek,
    Option.bind_some, if_neg delimited.noPoint, delimited.noMark, if_neg Bool.false_ne_true,
    if_pos rfl]
  rfl

/-- The digits before the point are collected as far as they fit. -/
theorem unsigned_digits (negative : Bool) (numeral : Numeral) :
    ∃ kept dropped, numeral.whole.bytes = kept ++ dropped ∧
      (dropped ≠ [] → significandLimit ≤ numeral.magnitude) ∧
      ∀ rest, rest.head?.any isDigit = false →
        outcome? (unsigned negative) (numeral.whole.bytes ++ rest) =
          outcome? (afterDigits negative (digitsValue 0 kept)) (dropped ++ rest) := by
  obtain ⟨byte, more, written, isDigit, areDigits⟩ := numeral.whole.exists_cons
  by_cases isZero : byte = zero
  · have alone : numeral.whole.bytes = [zero] := by
      apply numeral.zeroAlone
      rw [written, isZero]
      rfl
    refine ⟨[zero], [], alone, fun impossible => (impossible rfl).elim, ?_⟩
    intro rest ended
    simp only [alone, unsigned, outcome?_bind, outcome?_peek, outcome?_skipByte,
      Option.bind_some, List.cons_append, List.head?_cons, List.tail_cons, List.nil_append,
      outcome?_atDigit, ended, if_true, if_neg Bool.false_ne_true]
    rfl
  · obtain ⟨kept, dropped, split, large, collects⟩ :=
      collect_digits significandLimit (digitValue byte) 0 areDigits
    have begun (digits : List UInt8) :
        digitsValue 0 (byte :: digits) = digitsValue (digitValue byte) digits := by
      rw [digitsValue, List.foldl_cons, Nat.zero_mul, Nat.zero_add]
      rfl
    refine ⟨byte :: kept, dropped, by rw [written, split, List.cons_append], ?_, ?_⟩
    · intro tooMany
      rw [Numeral.magnitude, written, begun]
      exact large tooMany
    · intro rest ended
      simp only [written, unsigned, outcome?_bind, outcome?_peek, outcome?_skipByte,
        Option.bind_some, List.cons_append, List.head?_cons, List.tail_cons, if_neg isZero,
        isDigit, if_true, outcome?_collected (collects rest ended), begun]

/-- The sign is taken first. -/
theorem outcome?_number_sign (numeral : Numeral) (rest : List UInt8) :
    outcome? number (numeral.bytes ++ rest) =
      outcome? (unsigned numeral.isNegative)
        (numeral.whole.bytes ++ (Numeral.fractionBytes numeral.fraction ++
          (Numeral.exponentBytes numeral.exponent ++ rest))) := by
  simp only [Numeral.bytes, List.append_assoc]
  cases numeral.isNegative with
  | true => rfl
  | false =>
      obtain ⟨byte, more, written, isDigit, _⟩ := numeral.whole.exists_cons
      have notMinus : byte ≠ minus := by
        rintro rfl
        exact absurd isDigit (by decide)
      rw [written, number, outcome?_bind, outcome?_peek, Option.bind_some]
      exact congrArg (outcome? · _) (if_neg fun same => notMinus (Option.some.inj same))

/-- A numeral is read as an integer, or else as a float or as none whatever follows. -/
theorem outcome?_number (numeral : Numeral) :
    (numeral.IsIntegral ∧ ∀ rest, Delimited rest →
      outcome? number (numeral.bytes ++ rest) =
        some (integer numeral.isNegative numeral.magnitude, rest)) ∨
    (numeral.IsIntegral → significandLimit ≤ numeral.magnitude) ∧
      ∃ value? : Option Float, ∀ rest, Delimited rest →
        outcome? number (numeral.bytes ++ rest) =
          value?.map fun value => (.float value, rest) := by
  obtain ⟨kept, dropped, split, large, read⟩ := unsigned_digits numeral.isNegative numeral
  have opened {rest : List UInt8} (delimited : Delimited rest) :
      outcome? number (numeral.bytes ++ rest) =
        outcome? (afterDigits numeral.isNegative (digitsValue 0 kept))
          (dropped ++ (Numeral.fractionBytes numeral.fraction ++
            (Numeral.exponentBytes numeral.exponent ++ rest))) := by
    rw [outcome?_number_sign, read _ (fractionBytes_noDigit _ _ delimited)]
  by_cases isInteger : numeral.IsIntegral ∧ dropped = []
  · obtain ⟨⟨noFraction, noExponent⟩, rfl⟩ := isInteger
    apply Or.inl
    refine ⟨⟨noFraction, noExponent⟩, ?_⟩
    intro rest delimited
    rw [List.append_nil] at split
    rw [Option.isNone_iff_eq_none] at noFraction noExponent
    rw [opened delimited, noFraction, noExponent, Numeral.magnitude, split]
    exact afterDigits_integer _ _ delimited
  · apply Or.inr
    constructor
    · intro isIntegral
      exact large fun none => isInteger ⟨isIntegral, none⟩
    · have areDigits := numeral.whole.areDigits
      rw [split, List.all_append, Bool.and_eq_true] at areDigits
      obtain ⟨value?, settled⟩ := afterDigits_settles numeral.isNegative (digitsValue 0 kept)
        areDigits.2 numeral.fraction numeral.exponent (by
          intro noFraction noExponent none
          exact isInteger ⟨⟨by rw [noFraction]; rfl, by rw [noExponent]; rfl⟩, none⟩)
      apply Exists.intro value?
      intro rest delimited
      rw [opened delimited]
      exact settled rest delimited

section Values

variable {gap rest : List UInt8}

/-- A number is read behind its gap and then handed on. -/
theorem outcome?_numberAs {Value : Type} (wanted : String) (accept : Number → Reader Value)
    (numeral : Numeral) (isGap : IsGap gap) :
    outcome? (numberAs wanted accept) (gap ++ (numeral.bytes ++ rest)) =
      (outcome? number (numeral.bytes ++ rest)).bind fun result =>
        outcome? (accept result.1) result.2 := by
  obtain ⟨byte, more, written, begins⟩ := numeral.bytes_eq_cons
  have solid : isBlank byte = false := by
    rcases begins with rfl | isDigit
    · rfl
    · exact isBlank_of_isDigit isDigit
  rw [written, List.cons_append, numberAs, outcome?_token isGap solid]
  dsimp only
  rw [if_pos begins, outcome?_settled, outcome?_bind]

/-- The limits of the reader are those of 64 bits with a sign. -/
theorem outcome?_idOfNumber_integer (numeral : Numeral) (isIntegral : numeral.IsIntegral) :
    outcome? (idOfNumber (integer numeral.isNegative numeral.magnitude)) rest =
      numeral.int64?.map fun value => (value, rest) := by
  have power : Nat.pow 2 63 = 9223372036854775808 := rfl
  have lowest : Int64.minValue.toInt = -9223372036854775808 := rfl
  have highest : Int64.maxValue.toInt = 9223372036854775807 := rfl
  simp only [Numeral.int64?, Numeral.toInt, isIntegral, true_and, lowest, highest, integer, power]
  cases numeral.isNegative with
  | true =>
      by_cases outside : numeral.magnitude = 0 ∨ 9223372036854775808 < numeral.magnitude
      · rw [if_pos rfl, if_pos outside, if_neg (by simp only [if_true, true_implies]; omega)]
        rfl
      · rw [if_pos rfl, if_neg outside, if_pos (by simp only [if_true, true_implies]; omega)]
        have fits : (-numeral.magnitude : Int) < (Nat.pow 2 63 : Nat) := by omega
        simp only [idOfNumber, if_pos fits, outcome?_pure, if_true, Option.map_some]
  | false =>
      by_cases fits : (numeral.magnitude : Int) < (Nat.pow 2 63 : Nat)
      · rw [if_neg Bool.false_ne_true, if_pos (by simp; omega)]
        simp only [idOfNumber, if_pos fits, outcome?_pure, if_neg Bool.false_ne_true,
          Option.map_some]
      · rw [if_neg Bool.false_ne_true, if_neg (by simp; omega)]
        simp only [idOfNumber, if_neg fits, outcome?_refuse, Option.map_none]

/-- An identifier is read from the integers of 64 bits and from nothing else. -/
theorem outcome?_int64 (numeral : Numeral) (isGap : IsGap gap) (delimited : Delimited rest) :
    outcome? int64 (gap ++ (numeral.bytes ++ rest)) =
      numeral.int64?.map fun value => (value, rest) := by
  rw [int64, outcome?_numberAs _ _ _ isGap]
  rcases outcome?_number numeral with ⟨isIntegral, read⟩ | ⟨large, value?, read⟩
  · rw [read rest delimited, Option.bind_some, outcome?_idOfNumber_integer numeral isIntegral]
  · have refused : numeral.int64? = none := by
      apply if_neg
      rintro ⟨isIntegral, _, above, below⟩
      have power : significandLimit = 18446744073709551616 := rfl
      have lowest : Int64.minValue.toInt = -9223372036854775808 := rfl
      have highest : Int64.maxValue.toInt = 9223372036854775807 := rfl
      have beyond := large isIntegral
      unfold Numeral.toInt at above below
      cases negative : numeral.isNegative with
      | true =>
          rw [negative, if_pos rfl] at above
          omega
      | false =>
          rw [negative, if_neg Bool.false_ne_true] at below
          omega
    rw [read rest delimited, refused]
    cases value? with
    | none => rfl
    | some value => rfl

/-- This is what the numeral is as a float, if it is in range. -/
def float? (numeral : Numeral) : Option Float :=
  (outcome? float numeral.bytes).map fun result => result.1

/-- A numeral is read as the float that its value decides. -/
theorem outcome?_float (numeral : Numeral) (isGap : IsGap gap) (delimited : Delimited rest) :
    outcome? float (gap ++ (numeral.bytes ++ rest)) =
      (float? numeral).map fun value => (value, rest) := by
  obtain ⟨value?, read⟩ : ∃ value? : Option Float, ∀ gap rest, IsGap gap → Delimited rest →
      outcome? float (gap ++ (numeral.bytes ++ rest)) =
        value?.map fun value => (value, rest) := by
    rcases outcome?_number numeral with ⟨_, read⟩ | ⟨_, value?, read⟩
    · apply Exists.intro
        (some (floatOfNumber (integer numeral.isNegative numeral.magnitude)))
      intro gap rest isGap delimited
      rw [float, outcome?_numberAs _ _ _ isGap, read rest delimited]
      rfl
    · apply Exists.intro value?
      intro gap rest isGap delimited
      rw [float, outcome?_numberAs _ _ _ isGap, read rest delimited]
      cases value? with
      | none => rfl
      | some value => rfl
  have alone := read [] [] rfl .nil
  rw [List.nil_append, List.append_nil] at alone
  rw [read gap rest isGap delimited, float?, alone, Option.map_map]
  cases value? with
  | none => rfl
  | some value => rfl

end Values

end Reader

end LightList.Json
