/-
This file shows that the text of every float is read back as a float.

A reader that rounds twice may pass the largest float on the way and refuse the number. The shortest
digits leave enough room for both roundings. What is read are the digits that the text shows, scaled
by their power of ten, with the sign in front.
-/

import LightList.Proofs.Decimal.DigitBounds
import LightList.Proofs.Decimal.FloatBits
import LightList.Proofs.ReducedFile

namespace LightList

open Json Json.Written Text

namespace Decimal

/-- A finite float other than zero has a significand of 53 bits and a power in range. -/
theorem isBinary_binaryParts {value : Float} (finite : value.isFinite = true)
    (nonzero : (binaryParts (magnitudeBits value)).1 ≠ 0) :
    IsBinary (binaryParts (magnitudeBits value)).1 (binaryParts (magnitudeBits value)).2 := by
  have isMantissa := isMantissa_binaryParts (magnitudeBits value)
  exact ⟨nonzero, isMantissa.fits, isMantissa.lowest, power_le_of_isFinite finite⟩

/-- These are the digits that the text of a finite float shows, when its point is left out. -/
def shownDigits (value : Float) : Digits :=
  let parts := binaryParts (magnitudeBits value)
  if parts.1 = 0 then ⟨0, -1⟩ else (shortest parts.1 parts.2).shown

/-- The digits as they are shown have the same value. -/
theorem Digits.value_shown (digits : Digits) : digits.shown.value = digits.value := by
  have split : digits.exponent = digits.exponent - digits.shift + digits.shift := by omega
  rw [value, value, split, ten_zpow_add, zpow_natCast]
  simp only [shown]
  push_cast
  ring

end Decimal

/-- The text is a numeral that is read as this float. -/
def ReadsAs (text : String) (read : Float) : Prop :=
  ∃ numeral : Numeral, numeral.bytes = bytes text ∧ Reader.float? numeral = some read

/-- It is enough that the digits fit and can be scaled, whatever the sign in front. -/
theorem Json.Numeral.Shows.readsAs {numeral : Numeral} {text : String} {significand : Nat}
    {scale : Int} {exponent? : Option Int} (shows : numeral.Shows text significand scale exponent?)
    (digits : significand ≤ 10 ^ 17)
    (exponents : ∀ exponent ∈ exponent?, exponent.natAbs < Reader.exponentLimit)
    {value : Float} (scaled : Decimal.scaled? significand.toUInt64 scale = some value)
    (isNegative : Prop) [Decidable isNegative] :
    ReadsAs ((if isNegative then "-" else "") ++ text) (Reader.signed isNegative value) := by
  have fits : (numeral.withSign isNegative).Fits := by
    constructor
    · exact shows.notIntegral
    · change numeral.significand < _
      rw [shows.significand_eq]
      exact digits.trans_lt (by decide)
    · intro part member
      have isExponent : part.value ∈ exponent? := by
        rw [← shows.exponent_eq]
        exact Option.mem_map_of_mem _ member
      have small := exponents part.value isExponent
      have size : part.value.natAbs = digitsValue 0 part.digits.bytes := by
        unfold Exponent.value
        split <;> omega
      omega
  apply Exists.intro (numeral.withSign isNegative)
  apply And.intro (shows.bytes_withSign isNegative)
  rw [Reader.float?_of_fits fits]
  change (Decimal.scaled? numeral.significand.toUInt64 numeral.scale).map _ = _
  rw [shows.significand_eq, shows.scale_eq, scaled]
  rfl

/-- A text that reads as a float is a whole document for the reader of floats. -/
theorem ReadsAs.document_eq {text : String} {read : Float} (readsAs : ReadsAs text read) :
    Reader.document Reader.float (bytes text) = .ok read := by
  obtain ⟨numeral, same, isRead⟩ := readsAs
  exact (Reader.document_eq_ok_iff Reader.reads_float (Written.writesDocument_number same) read).2
    isRead

namespace Decimal

/-- Dividing by a power of ten never fails. -/
theorem isSome_scaled?_of_neg (significand : UInt64) {exponent : ℤ} (negative : exponent < 0) :
    (scaled? significand exponent).isSome = true := by
  rw [scaled?, if_pos negative]
  rfl

/-- A number below a power of ten has no more digits than its exponent says. -/
theorem length_repr_le {value count : ℕ} (positive : 0 < count) (small : value < 10 ^ count) :
    value.repr.length ≤ count := by
  rw [length_repr]
  exact (Nat.length_toDigits_le_iff (by decide) positive).2 small

namespace IsBinary

variable {significand : ℕ} {power : ℤ}

/-- At most seventeen digits are shown, or a power of ten with one more. -/
theorem significand_shown_le (binary : IsBinary significand power) :
    (shortest significand power).shown.significand ≤ 10 ^ 17 := by
  rcases shown_range (shortest significand power) with asTheyAre | withZeros
  · rw [asTheyAre]
    exact binary.significand_shortest_le
  · exact withZeros.2

/-- The shortest digits are either shown as they are or with zeros up to the point. -/
theorem exists_readsAs_shortest (binary : IsBinary significand power) (isNegative : Prop)
    [Decidable isNegative] :
    let digits := (shortest significand power).shown
    ∃ value, scaled? digits.significand.toUInt64 digits.exponent = some value ∧
      ReadsAs ((if isNegative then "-" else "") ++ (shortest significand power).text)
        (Reader.signed isNegative value) := by
  intro digits
  obtain ⟨exponent?, ⟨numeral, shows⟩, exponents⟩ :=
    denotes_text (significand_shortest_ne_zero binary.nonzero power)
  have few := binary.significand_shortest_le
  have range := binary.exponent_shortest
  have long : (shortest significand power).significand.repr.length ≤ 18 :=
    length_repr_le (by decide) (few.trans_lt (by decide))
  have limit : Reader.exponentLimit = 2147483648 := rfl
  have isScaled : (scaled? digits.significand.toUInt64 digits.exponent).isSome = true := by
    rcases shown_range (shortest significand power) with asTheyAre | withZeros
    · have same : digits = shortest significand power := asTheyAre
      rw [same]
      exact binary.isSome_scaled?_shortest
    · exact isSome_scaled?_of_neg _ withZeros.1
  obtain ⟨value, scaled⟩ := Option.isSome_iff_exists.1 isScaled
  refine ⟨value, scaled, shows.readsAs binary.significand_shown_le ?_ scaled isNegative⟩
  intro exponent member
  rw [exponents exponent member]
  omega

end IsBinary

/-- The text of a finite float is read as the digits that it shows. -/
theorem exists_readsAs {value : Float} (finite : value.isFinite = true) :
    ∃ text magnitude, floatText? value = some text ∧
      scaled? (shownDigits value).significand.toUInt64 (shownDigits value).exponent =
        some magnitude ∧
      ReadsAs text (Reader.signed (isNegative value) magnitude) := by
  suffices reads : ∃ magnitude,
      scaled? (shownDigits value).significand.toUInt64 (shownDigits value).exponent =
        some magnitude ∧
      ReadsAs ((if value.toBits.toNat / Nat.pow 2 63 = 1 then "-" else "") ++
        magnitudeText (magnitudeBits value)) (Reader.signed (isNegative value) magnitude) by
    obtain ⟨magnitude, reads⟩ := reads
    exact ⟨_, magnitude, if_pos finite, reads⟩
  unfold magnitudeText shownDigits
  dsimp only
  by_cases isZero : (binaryParts (magnitudeBits value)).1 = 0
  · obtain ⟨numeral, shows⟩ := denotes_zero
    obtain ⟨magnitude, scaled⟩ := Option.isSome_iff_exists.1
      (isSome_scaled?_of_neg (0 : ℕ).toUInt64 (by decide : (-1 : ℤ) < 0))
    rw [if_pos isZero, if_pos isZero]
    refine ⟨magnitude, scaled, shows.readsAs (by decide) ?_ scaled _⟩
    intro exponent member
    cases member
  · rw [if_neg isZero, if_neg isZero]
    exact (isBinary_binaryParts finite isZero).exists_readsAs_shortest _

/-- The shown digits are read again as the float that they scale to, with their sign. -/
theorem exists_reread_shown {value : Float} (finite : value.isFinite = true) :
    ∃ magnitude,
      scaled? (shownDigits value).significand.toUInt64 (shownDigits value).exponent =
        some magnitude ∧
      reread? value = some (Reader.signed (isNegative value) magnitude) := by
  obtain ⟨text, magnitude, found, scaled, readsAs⟩ := exists_readsAs finite
  refine ⟨magnitude, scaled, ?_⟩
  rw [reread?, found, Option.bind_some]
  exact congrArg Except.toOption readsAs.document_eq

end Decimal

/-- No float is printed in a way that the reader refuses. -/
theorem isAccepted_all (value : Float) : isAccepted value = true := by
  unfold isAccepted
  by_cases finite : value.isFinite = true
  · obtain ⟨text, _, found, _, readsAs⟩ := Decimal.exists_readsAs finite
    rw [found, Option.all_some]
    exact congrArg Except.isOk readsAs.document_eq
  · rw [Decimal.floatText?, if_neg finite]
    rfl

section Coordinates

variable {value : Float}

/-- Infinities and values that are no number have no text. -/
theorem Decimal.floatText?_of_not (infinite : value.isFinite = false) :
    Decimal.floatText? value = none :=
  if_neg fun finite => Bool.false_ne_true (infinite.symm.trans finite)

/-- What is no finite float is written as null. -/
theorem Json.compact_ofFloat_of_not (infinite : value.isFinite = false) :
    (Json.ofFloat value).compact = "null" := by
  rw [Json.ofFloat, compact, Number.text, Decimal.floatText?_of_not infinite, Option.getD_none]

/-- What is no finite float stands for null. -/
theorem Json.prints_ofFloat_of_not (infinite : value.isFinite = false) :
    Prints (.ofFloat value) .null := by
  have letters : Text.bytes "null" = Written.nullBytes := Text.bytes_eq _
  rw [Prints, Json.compact_ofFloat_of_not infinite, letters]
  exact .null

/-- Every finite float is written as a numeral. -/
theorem Json.exists_numeral_ofFloat (finite : value.isFinite = true) :
    ∃ numeral : Numeral, numeral.bytes = Text.bytes (Json.ofFloat value).compact := by
  obtain ⟨text, found⟩ : ∃ text, Decimal.floatText? value = some text := ⟨_, if_pos finite⟩
  obtain ⟨numeral, same, _⟩ := exists_numeral_floatText found
  apply Exists.intro numeral
  rw [same, Json.ofFloat, compact, Number.text, found, Option.getD_some]

/-- Null is not read again as a float. -/
theorem reread?_of_not (infinite : value.isFinite = false) : reread? value = none := by
  rw [reread?, Decimal.floatText?_of_not infinite, Option.bind_none]

/-- Exactly the finite floats are read again. -/
theorem isSome_reread? (value : Float) : (reread? value).isSome = value.isFinite := by
  cases isFinite : value.isFinite with
  | false => rw [reread?_of_not isFinite, Option.isSome_none]
  | true =>
      obtain ⟨_, _, found⟩ := Decimal.exists_reread_shown isFinite
      rw [found, Option.isSome_some]

/-- Whatever a coordinate is written as, it is read again as a float or as none. -/
theorem Json.exists_prints_float (value : Float) :
    ∃ tree, Prints (.ofFloat value) tree ∧
      Written.orNull? Written.float? tree = some (reread? value) := by
  cases isFinite : value.isFinite with
  | false =>
      rw [reread?_of_not isFinite]
      exact ⟨.null, prints_ofFloat_of_not isFinite, rfl⟩
  | true =>
      obtain ⟨_, _, found⟩ := Decimal.exists_reread_shown isFinite
      rw [found]
      exact exists_prints_coordinate found

end Coordinates

end LightList
