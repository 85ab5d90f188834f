/-
This file shows that integers and floats are printed as numerals, and which digits and powers of ten
these numerals show.
-/

import LightList.Proofs.Json.NumeralValue
import LightList.Proofs.Json.Printing
import LightList.Proofs.ShortestDigits
import Mathlib.Algebra.Group.Nat.Defs

namespace LightList.Decimal.Digits

/-- So many zeros are shown behind the digits: those up to the point, and one behind it. -/
def shift (digits : Digits) : Nat :=
  if isPositional ((digits.significand.repr.length : Int) + digits.exponent - 1) then
    (digits.exponent + 1).toNat
  else 0

/-- These are the digits that the text shows, when the point is left out. -/
def shown (digits : Digits) : Digits :=
  ⟨digits.significand * 10 ^ digits.shift, digits.exponent - digits.shift⟩

end LightList.Decimal.Digits

namespace LightList.Json

open Text

theorem between_of_isDigit {character : Char} (digit : character.isDigit = true) :
    48 ≤ character.toNat ∧ character.toNat ≤ 57 := by
  simpa [Char.isDigit, UInt32.le_iff_toNat_le] using digit

/-- A digit is one byte of the same value. -/
theorem byte_of_isDigit {character : Char} (digit : character.isDigit = true) :
    String.utf8EncodeChar character = [UInt8.ofNat character.toNat] ∧
      isDigit (UInt8.ofNat character.toNat) = true ∧
      digitValue (UInt8.ofNat character.toNat) = character.toNat - '0'.toNat := by
  have between := between_of_isDigit digit
  have inByte : character.toNat < UInt8.size := by
    change character.toNat < 256
    omega
  have small : (UInt8.ofNat character.toNat).toNat = character.toNat :=
    UInt8.toNat_ofNat_of_lt' inByte
  have lowest : zero.toNat = 48 := rfl
  have highest : nine.toNat = 57 := rfl
  constructor
  · apply utf8EncodeChar_ascii
    omega
  · constructor
    · simp only [isDigit, Bool.and_eq_true, decide_eq_true_eq, UInt8.le_iff_toNat_le, small,
        lowest, highest]
      exact between
    · rw [digitValue, small]
      rfl

/-- All characters are digits, and there is one. -/
structure AreDigits (characters : List Char) : Prop where
  nonempty : characters ≠ []
  areDigits : ∀ character ∈ characters, character.isDigit = true

namespace AreDigits

variable {characters : List Char}

theorem bytes_eq_map (areDigits : ∀ character ∈ characters, character.isDigit = true) :
    bytes (String.ofList characters) =
      characters.map fun character => UInt8.ofNat character.toNat := by
  rw [bytes_ofList, List.map_eq_flatMap]
  apply List.flatMap_congr
  intro character member
  exact (byte_of_isDigit (areDigits character member)).1

/-- These are the digits as bytes. -/
def digits (written : AreDigits characters) : Digits where
  bytes := bytes (String.ofList characters)
  nonempty := by
    rw [bytes_eq_map written.areDigits]
    exact fun isEmpty => written.nonempty (List.map_eq_nil_iff.1 isEmpty)
  areDigits := by
    rw [bytes_eq_map written.areDigits, List.all_map, List.all_eq_true]
    intro character member
    exact (byte_of_isDigit (written.areDigits character member)).2.1

/-- The written digits have the value of their characters. -/
theorem digitsValue_eq (written : AreDigits characters) (value : Nat) :
    digitsValue value written.digits.bytes = Nat.ofDigitChars 10 characters value := by
  have same : written.digits.bytes = _ := bytes_eq_map written.areDigits
  rw [same, digitsValue, List.foldl_map, Nat.ofDigitChars_eq_foldl]
  apply List.foldl_ext
  intro value character member
  rw [(byte_of_isDigit (written.areDigits character member)).2.2, Nat.mul_comm]

theorem length_digits (written : AreDigits characters) :
    written.digits.bytes.length = characters.length := by
  have same : written.digits.bytes = _ := bytes_eq_map written.areDigits
  rw [same, List.length_map]

/-- Digits that begin with zero only if they are a lone zero are written so. -/
theorem zeroAlone (written : AreDigits characters)
    (leading : characters.head? = some '0' → characters = ['0'])
    (isZero : written.digits.bytes.head? = some zero) : written.digits.bytes = [zero] := by
  have same : written.digits.bytes = _ := bytes_eq_map written.areDigits
  rw [same] at isZero ⊢
  rw [leading]
  · rfl
  · cases characters with
    | nil => exact (written.nonempty rfl).elim
    | cons character rest =>
        have digit := written.areDigits character List.mem_cons_self
        have byte : UInt8.ofNat character.toNat = zero := Option.some.inj isZero
        have value : character.toNat - 48 = digitValue zero := by
          rw [← byte, (byte_of_isDigit digit).2.2]
          rfl
        have least : 48 ≤ character.toNat := (between_of_isDigit digit).1
        have code : character.toNat = '0'.toNat := by
          change character.toNat - 48 = 0 at value
          change character.toNat = 48
          omega
        rw [Char.toNat_inj.1 code]
        rfl

end AreDigits

theorem AreDigits.append {front back : List Char} (frontDigits : AreDigits front)
    (backDigits : ∀ character ∈ back, character.isDigit = true) : AreDigits (front ++ back) where
  nonempty := fun isEmpty => frontDigits.nonempty (List.append_eq_nil_iff.1 isEmpty).1
  areDigits := fun character member =>
    (List.mem_append.1 member).elim (frontDigits.areDigits character) (backDigits character)

/-- Some of these digits are digits as well. -/
theorem AreDigits.part {characters part : List Char} (written : AreDigits characters)
    (nonempty : part ≠ []) (isPart : part ⊆ characters) : AreDigits part where
  nonempty := nonempty
  areDigits := fun character member => written.areDigits character (isPart member)

theorem isDigit_zeros {count : Nat} {character : Char}
    (member : character ∈ List.replicate count '0') : character.isDigit = true := by
  rw [List.eq_of_mem_replicate member]
  rfl

/-- A number has decimal digits, and at least one. -/
theorem areDigits_toDigits (value : Nat) : AreDigits (Nat.toDigits 10 value) where
  nonempty := Nat.toDigits_ne_nil
  areDigits := fun _ member => Nat.isDigit_of_mem_toDigits (by decide) (by decide) member

/-- The first digit is zero for zero only. -/
theorem head?_toDigits {value : Nat} (nonzero : value ≠ 0) :
    (Nat.toDigits 10 value).head? ≠ some '0' := by
  induction value using Nat.strongRecOn with
  | ind value inductionHypothesis =>
      by_cases single : value < 10
      · rw [Nat.toDigits_of_lt_base single]
        intro isZero
        exact nonzero (Nat.digitChar_eq_zero.1 (Option.some.inj isZero))
      · have front : (Nat.toDigits 10 (value / 10)).head? ≠ some '0' :=
          inductionHypothesis (value / 10) (by omega) (by omega)
        rw [Nat.toDigits_of_base_le (by decide) (by omega), List.head?_append_of_ne_nil]
        · exact front
        · exact Nat.toDigits_ne_nil

/-- Only zero begins with the digit zero. -/
theorem leading_toDigits (value : Nat) (isZero : (Nat.toDigits 10 value).head? = some '0') :
    Nat.toDigits 10 value = ['0'] := by
  by_cases none : value = 0
  · rw [none, Nat.toDigits_zero]
  · exact (head?_toDigits none isZero).elim

namespace Numeral

/-- An integer is written by its sign and its digits. -/
def ofInt (value : Int) : Numeral where
  isNegative := value < 0
  whole := (areDigits_toDigits value.natAbs).digits
  fraction := none
  exponent := none
  zeroAlone := (areDigits_toDigits value.natAbs).zeroAlone (leading_toDigits value.natAbs)

/-- The numeral of an integer is written as the integer is. -/
theorem bytes_ofInt (value : Int) : (ofInt value).bytes = Text.bytes value.repr := by
  have mark : Text.bytes "-" = [minus] := bytes_eq _
  have written : (ofInt value).bytes =
      signBytes (value < 0) ++ Text.bytes value.natAbs.repr := by
    rw [Nat.repr_eq_ofList_toDigits]
    exact congrArg (signBytes (value < 0) ++ ·) (List.append_nil _)
  rw [written, Int.repr_eq_if]
  by_cases negative : value < 0
  · have size : (-value).toNat = value.natAbs := by omega
    rw [decide_eq_true negative, if_neg (Int.not_le.2 negative), bytes_append, mark, size]
    rfl
  · have size : value.toNat = value.natAbs := by omega
    rw [decide_eq_false negative, if_pos (Int.not_lt.1 negative), size]
    rfl

/-- The digits of that numeral have the size of the integer. -/
theorem magnitude_ofInt (value : Int) : (ofInt value).magnitude = value.natAbs :=
  ((areDigits_toDigits value.natAbs).digitsValue_eq 0).trans Nat.ofDigitChars_ten_toDigits

/-- The numeral of an integer has its value. -/
theorem toInt_ofInt (value : Int) : (ofInt value).toInt = value := by
  rw [toInt, magnitude_ofInt, ofInt]
  by_cases negative : value < 0
  · rw [if_pos (decide_eq_true negative)]
    omega
  · rw [decide_eq_false negative, if_neg Bool.false_ne_true]
    omega

/-- Every identifier is within the limits, so it is read as it was. -/
theorem int64?_ofInt (id : Int64) : (ofInt id.toInt).int64? = some id := by
  rw [int64?, toInt_ofInt, Int64.ofInt_toInt, magnitude_ofInt, if_pos]
  constructor
  · exact ⟨rfl, rfl⟩
  · refine ⟨?_, id.minValue_le_toInt, id.toInt_le⟩
    intro negative
    have below : id.toInt < 0 := of_decide_eq_true negative
    omega

end Numeral

/-- An integer is printed as its numeral. -/
theorem prints_integer (value : Int) :
    Prints (.number (.integer value)) (.number (.ofInt value)) := by
  have printed : (Json.number (.integer value)).compact = value.repr := by
    rw [compact, Number.text]
  rw [Prints, printed, ← Numeral.bytes_ofInt]
  exact .number _

/-- An identifier is printed as a number that reads as it. -/
theorem exists_prints_ofId (id : Int64) :
    ∃ tree : Written, Prints (.ofId id) tree ∧ tree.int64? = some id :=
  ⟨.number (.ofInt id.toInt), prints_integer id.toInt, Numeral.int64?_ofInt id⟩

/-- Every integer of 64 bits fits the significand. -/
theorem magnitude_ofInt_lt (value : Int64) :
    (Numeral.ofInt value.toInt).magnitude < Reader.significandLimit := by
  have limit : Reader.significandLimit = 18446744073709551616 := rfl
  have lowest : Int64.minValue.toInt = -9223372036854775808 := rfl
  have highest : Int64.maxValue.toInt = 9223372036854775807 := rfl
  have above := value.minValue_le_toInt
  have below := value.toInt_le
  rw [Numeral.magnitude_ofInt]
  omega

/-- An integer of 64 bits is also read as a float. -/
theorem exists_float?_ofInt (value : Int64) :
    ∃ read, Reader.float? (.ofInt value.toInt) = some read := by
  have noGap : IsGap [] := rfl
  rcases Reader.outcome?_number (.ofInt value.toInt) with ⟨_, read⟩ | ⟨large, _⟩
  · have opened : Reader.outcome? Reader.float ([] ++ ((Numeral.ofInt value.toInt).bytes ++ [])) =
        _ := Reader.outcome?_numberAs _ _ _ noGap
    rw [read [] .nil, List.nil_append, List.append_nil] at opened
    rw [Reader.float?, opened]
    exact ⟨_, rfl⟩
  · exact absurd (large ⟨rfl, rfl⟩) (Nat.not_le.2 (magnitude_ofInt_lt value))

/-- The numeral is the text. It has no sign and is no integer, and its parts have these values. -/
structure Numeral.Shows (numeral : Numeral) (text : String) (significand : Nat) (scale : Int)
    (exponent? : Option Int) : Prop where
  unsigned : numeral.isNegative = false
  bytes_eq : numeral.bytes = Text.bytes text
  notIntegral : ¬ numeral.IsIntegral
  significand_eq : numeral.significand = significand
  scale_eq : numeral.scale = scale
  exponent_eq : numeral.exponent.map Exponent.value = exponent?

/-- The text is a numeral that shows this value. -/
def Denotes (text : String) (significand : Nat) (scale : Int) (exponent? : Option Int) : Prop :=
  ∃ numeral : Numeral, numeral.Shows text significand scale exponent?

section Parts

variable {whole fraction : List Char}

/-- Digits around a decimal point denote all digits, scaled by those behind the point. -/
theorem denotes_point (wholeDigits : AreDigits whole)
    (leading : whole.head? = some '0' → whole = ['0']) (fractionDigits : AreDigits fraction) :
    Denotes (String.ofList whole ++ "." ++ String.ofList fraction)
      (Nat.ofDigitChars 10 (whole ++ fraction) 0) (-fraction.length) none := by
  have mark : bytes "." = [point] := bytes_eq _
  apply Exists.intro (⟨false, wholeDigits.digits, some fractionDigits.digits, none,
    wholeDigits.zeroAlone leading⟩ : Numeral)
  constructor
  · rfl
  · rw [bytes_append, bytes_append, mark, List.append_assoc]
    exact congrArg (bytes (String.ofList whole) ++ ·) (List.append_nil _)
  · exact fun isIntegral => Bool.false_ne_true isIntegral.1
  · rw [Nat.ofDigitChars_append, ← wholeDigits.digitsValue_eq, ← fractionDigits.digitsValue_eq]
    rfl
  · rw [← fractionDigits.length_digits, ← Int.zero_sub]
    rfl
  · rfl

/-- Every exponent can be written, with its sign. -/
theorem exists_exponent (exponent : Int) :
    ∃ written : Exponent, written.bytes = bytes (Decimal.exponentText exponent) ∧
      written.value = exponent := by
  have positive : bytes "e+" = [0x65, plus] := bytes_eq _
  have negative : bytes "e-" = [0x65, minus] := bytes_eq _
  have notMinus : ¬ [plus] = [minus] := by decide
  have digits := areDigits_toDigits exponent.natAbs
  have size : digitsValue 0 digits.digits.bytes = exponent.natAbs :=
    (digits.digitsValue_eq 0).trans Nat.ofDigitChars_ten_toDigits
  rw [Decimal.exponentText, Nat.repr_eq_ofList_toDigits]
  split
  · apply Exists.intro (⟨0x65, [minus], digits.digits, rfl, .inr (.inr rfl)⟩ : Exponent)
    constructor
    · rw [bytes_append, negative]
      rfl
    · rw [Exponent.value, if_pos rfl, size]
      omega
  · apply Exists.intro (⟨0x65, [plus], digits.digits, rfl, .inr (.inl rfl)⟩ : Exponent)
    constructor
    · rw [bytes_append, positive]
      rfl
    · rw [Exponent.value, if_neg notMinus, size]
      omega

/-- Digits with an exponent denote all digits, scaled by the exponent as well. -/
theorem denotes_exponent (wholeDigits : AreDigits whole)
    (leading : whole.head? = some '0' → whole = ['0'])
    (fractionDigits : ∀ character ∈ fraction, character.isDigit = true) (exponent : Int) :
    Denotes (String.ofList whole ++
      (if fraction.isEmpty then "" else "." ++ String.ofList fraction) ++
        Decimal.exponentText exponent)
      (Nat.ofDigitChars 10 (whole ++ fraction) 0) (exponent - fraction.length)
      (some exponent) := by
  obtain ⟨written, same, value⟩ := exists_exponent exponent
  have mark : bytes "." = [point] := bytes_eq _
  have empty : bytes "" = [] := bytes_eq _
  cases fraction with
  | nil =>
      apply Exists.intro
        (⟨false, wholeDigits.digits, none, some written, wholeDigits.zeroAlone leading⟩ : Numeral)
      constructor
      · rfl
      · rw [List.isEmpty_nil, if_pos rfl, bytes_append, bytes_append, empty, List.append_nil,
          ← same]
        rfl
      · exact fun isIntegral => Bool.false_ne_true isIntegral.2
      · rw [List.append_nil, ← wholeDigits.digitsValue_eq]
        rfl
      · exact congrArg (· - ((0 : Nat) : Int)) value
      · exact congrArg some value
  | cons character rest =>
      have further : AreDigits (character :: rest) := ⟨List.cons_ne_nil _ _, fractionDigits⟩
      apply Exists.intro (⟨false, wholeDigits.digits, some further.digits, some written,
        wholeDigits.zeroAlone leading⟩ : Numeral)
      constructor
      · rfl
      · rw [List.isEmpty_cons, if_neg Bool.false_ne_true, bytes_append, bytes_append, bytes_append,
          mark, ← same, List.append_assoc]
        rfl
      · exact fun isIntegral => Bool.false_ne_true isIntegral.1
      · rw [Nat.ofDigitChars_append, ← wholeDigits.digitsValue_eq, ← further.digitsValue_eq]
        rfl
      · rw [← further.length_digits, ← value]
        rfl
      · exact congrArg some value

end Parts

section Points

variable {characters : List Char} (written : AreDigits characters)

include written

/-- Zeros behind the point are part of the scale alone. -/
theorem denotes_belowOne (count : Nat) :
    Denotes ("0." ++ Decimal.zeros count ++ String.ofList characters)
      (Nat.ofDigitChars 10 characters 0) (-(count + characters.length)) none := by
  have zeroDigit : AreDigits ['0'] := areDigits_toDigits 0
  have fraction : AreDigits (List.replicate count '0' ++ characters) := by
    constructor
    · intro isEmpty
      exact written.nonempty (List.append_eq_nil_iff.1 isEmpty).2
    · intro character member
      exact (List.mem_append.1 member).elim isDigit_zeros (written.areDigits character)
  have joined := denotes_point zeroDigit (fun _ => rfl) fraction
  rw [String.ofList_append, ← String.append_assoc, List.length_append, List.length_replicate,
    Nat.ofDigitChars_append, Nat.ofDigitChars_append, Nat.ofDigitChars_replicate_zero] at joined
  exact joined

/-- A whole number is written with its zeros and one zero behind the point. -/
theorem denotes_whole (leading : characters.head? ≠ some '0') (count : Nat) :
    Denotes (String.ofList characters ++ Decimal.zeros count ++ ".0")
      (Nat.ofDigitChars 10 characters 0 * 10 ^ (count + 1)) (-1) none := by
  have zeroDigit : AreDigits ['0'] := areDigits_toDigits 0
  have whole : AreDigits (characters ++ List.replicate count '0') :=
    written.append fun _ => isDigit_zeros
  have joined := denotes_point whole (by
    intro isZero
    rw [List.head?_append_of_ne_nil _ written.nonempty] at isZero
    exact (leading isZero).elim) zeroDigit
  have further : ['0'] = List.replicate 1 '0' := rfl
  have value : Nat.ofDigitChars 10 (characters ++ List.replicate count '0' ++ ['0']) 0 =
      Nat.ofDigitChars 10 characters 0 * 10 ^ (count + 1) := by
    rw [List.append_assoc, further, List.replicate_append_replicate, Nat.ofDigitChars_append,
      Nat.ofDigitChars_replicate_zero, Nat.mul_comm]
  rw [value, String.ofList_append, String.append_assoc] at joined
  exact joined

/-- Where the point falls among the digits it splits them. -/
theorem denotes_split (leading : characters.head? ≠ some '0') {count : Nat}
    (some : count ≠ 0) (fewer : count < characters.length) :
    Denotes (String.ofList (characters.take count) ++ "." ++
      String.ofList (characters.drop count)) (Nat.ofDigitChars 10 characters 0)
        (count - characters.length) none := by
  have joined : Denotes (String.ofList (characters.take count) ++ "." ++
      String.ofList (characters.drop count))
        (Nat.ofDigitChars 10 (characters.take count ++ characters.drop count) 0)
        (-(characters.drop count).length) none := by
    apply denotes_point
    · apply written.part
      · intro isEmpty
        exact (List.take_eq_nil_iff.1 isEmpty).elim some written.nonempty
      · exact List.take_subset _ _
    · intro isZero
      rw [List.head?_take, if_neg some] at isZero
      exact (leading isZero).elim
    · apply written.part
      · intro isEmpty
        have all := List.drop_eq_nil_iff.1 isEmpty
        omega
      · exact List.drop_subset _ _
  have same : (-(characters.drop count).length : Int) = count - characters.length := by
    rw [List.length_drop]
    omega
  rw [List.take_append_drop, same] at joined
  exact joined

end Points

section Texts

variable {digits : Decimal.Digits}

theorem length_repr (value : Nat) : value.repr.length = (Nat.toDigits 10 value).length := by
  rw [Nat.repr_eq_ofList_toDigits, String.length_ofList]

/-- The point is written among the digits or among zeros next to them. -/
theorem denotes_positionalText (nonzero : digits.significand ≠ 0) :
    Denotes digits.positionalText (digits.significand * 10 ^ (digits.exponent + 1).toNat)
      (digits.exponent - (digits.exponent + 1).toNat) none := by
  have written := areDigits_toDigits digits.significand
  have leading := head?_toDigits nonzero
  have value : Nat.ofDigitChars 10 (Nat.toDigits 10 digits.significand) 0 = digits.significand :=
    Nat.ofDigitChars_ten_toDigits
  unfold Decimal.Digits.positionalText
  simp only [Nat.repr_eq_ofList_toDigits, String.toList_ofList, String.length_ofList]
  generalize Nat.toDigits 10 digits.significand = characters at *
  have positive : 0 < characters.length := List.length_pos_iff.2 written.nonempty
  have unmoved (negative : digits.exponent < 0) :
      digits.significand * 10 ^ (digits.exponent + 1).toNat = digits.significand ∧
        digits.exponent - (digits.exponent + 1).toNat = digits.exponent := by
    have none : (digits.exponent + 1).toNat = 0 := by omega
    rw [none, Nat.pow_zero, Nat.mul_one, Int.natCast_zero, Int.sub_zero]
    exact ⟨rfl, rfl⟩
  split
  · next below =>
      have denotes := denotes_belowOne written (-(characters.length + digits.exponent)).toNat
      have same : (-((-(characters.length + digits.exponent)).toNat + characters.length) : Int) =
          digits.exponent := by omega
      rw [value, same] at denotes
      obtain ⟨significand, exponent⟩ := unmoved (by omega)
      rw [significand, exponent]
      exact denotes
  · split
    · next above =>
        have denotes := denotes_whole written leading digits.exponent.toNat
        have zeros : (digits.exponent + 1).toNat = digits.exponent.toNat + 1 := by omega
        have same : digits.exponent - (digits.exponent.toNat + 1 : Nat) = -1 := by omega
        rw [value] at denotes
        rw [zeros, same]
        exact denotes
    · next below =>
        have some : (characters.length + digits.exponent).toNat ≠ 0 := by omega
        have fewer : (characters.length + digits.exponent).toNat < characters.length := by omega
        have denotes := denotes_split written leading some fewer
        have same : ((characters.length + digits.exponent).toNat - characters.length : Int) =
            digits.exponent := by omega
        rw [value, same] at denotes
        obtain ⟨significand, exponent⟩ := unmoved (by omega)
        rw [significand, exponent]
        exact denotes

/-- One digit stands before the point, if there is one. -/
theorem denotes_scientificText (nonzero : digits.significand ≠ 0) :
    Denotes digits.scientificText digits.significand digits.exponent
      (some (digits.significand.repr.length + digits.exponent - 1)) := by
  have written := areDigits_toDigits digits.significand
  have leading := head?_toDigits nonzero
  have value : Nat.ofDigitChars 10 (Nat.toDigits 10 digits.significand) 0 = digits.significand :=
    Nat.ofDigitChars_ten_toDigits
  unfold Decimal.Digits.scientificText
  simp only [Nat.repr_eq_ofList_toDigits, String.toList_ofList, String.length_ofList]
  generalize Nat.toDigits 10 digits.significand = characters at *
  have front : AreDigits (characters.take 1) := by
    apply written.part
    · intro isEmpty
      exact (List.take_eq_nil_iff.1 isEmpty).elim Nat.one_ne_zero written.nonempty
    · exact List.take_subset _ _
  have frontLeading : (characters.take 1).head? = some '0' → characters.take 1 = ['0'] := by
    intro isZero
    rw [List.head?_take, if_neg Nat.one_ne_zero] at isZero
    exact (leading isZero).elim
  have others : ∀ character ∈ characters.drop 1, character.isDigit = true :=
    fun character member => written.areDigits character (List.drop_subset _ _ member)
  have denotes := denotes_exponent front frontLeading others
    (characters.length + digits.exponent - 1)
  have positive : 0 < characters.length := List.length_pos_iff.2 written.nonempty
  have same : (characters.length + digits.exponent - 1 - (characters.drop 1).length : Int) =
      digits.exponent := by
    rw [List.length_drop]
    omega
  rw [List.take_append_drop, value, same] at denotes
  exact denotes

/-- The text shows its digits, and perhaps the power of ten of the first one. -/
theorem denotes_text (nonzero : digits.significand ≠ 0) :
    ∃ exponent? : Option Int,
      Denotes digits.text digits.shown.significand digits.shown.exponent exponent? ∧
      ∀ exponent ∈ exponent?,
        exponent = digits.significand.repr.length + digits.exponent - 1 := by
  unfold Decimal.Digits.text Decimal.Digits.shown Decimal.Digits.shift
  split
  · apply Exists.intro none
    apply And.intro (denotes_positionalText nonzero)
    intro exponent member
    cases member
  · apply Exists.intro (some (digits.significand.repr.length + digits.exponent - 1))
    constructor
    · rw [Nat.pow_zero, Nat.mul_one, Int.natCast_zero, Int.sub_zero]
      exact denotes_scientificText nonzero
    · intro exponent member
      exact (Option.mem_some_iff.1 member).symm

/-- The digits themselves are shown, or all zeros up to the point with them. -/
theorem shown_range (digits : Decimal.Digits) :
    digits.shown = digits ∨ digits.shown.exponent < 0 ∧ digits.shown.significand ≤ 10 ^ 17 := by
  by_cases none : digits.shift = 0
  · apply Or.inl
    rw [Decimal.Digits.shown, none, Nat.pow_zero, Nat.mul_one, Int.natCast_zero, Int.sub_zero]
  · apply Or.inr
    unfold Decimal.Digits.shown
    unfold Decimal.Digits.shift at none ⊢
    split at none
    · next positional =>
        rw [if_pos positional]
        rw [Decimal.isPositional, Bool.and_eq_true, decide_eq_true_eq, decide_eq_true_eq,
          length_repr] at positional
        have positive : 0 < (Nat.toDigits 10 digits.significand).length :=
          List.length_pos_iff.2 Nat.toDigits_ne_nil
        have small : digits.significand < 10 ^ (Nat.toDigits 10 digits.significand).length :=
          (Nat.length_toDigits_le_iff (by decide) positive).1 (Nat.le_refl _)
        constructor
        · change digits.exponent - ((digits.exponent + 1).toNat : Int) < 0
          omega
        · calc
            digits.significand * 10 ^ (digits.exponent + 1).toNat ≤
                10 ^ (Nat.toDigits 10 digits.significand).length *
                  10 ^ (digits.exponent + 1).toNat :=
              Nat.mul_le_mul_right _ small.le
            _ = 10 ^ ((Nat.toDigits 10 digits.significand).length +
                (digits.exponent + 1).toNat) := (Nat.pow_add ..).symm
            _ ≤ 10 ^ 17 := Nat.pow_le_pow_right (by decide) (by omega)
    · exact (none rfl).elim

theorem denotes_zero : Denotes "0.0" 0 (-1) none := by
  have zeroDigit : AreDigits ['0'] := areDigits_toDigits 0
  exact denotes_point zeroDigit (fun _ => rfl) zeroDigit

/-- The text of every size without a sign is a numeral. -/
theorem exists_denotes_magnitudeText (bits : Nat) :
    ∃ significand scale exponent?,
      Denotes (Decimal.magnitudeText bits) significand scale exponent? := by
  unfold Decimal.magnitudeText
  dsimp only
  split
  · exact ⟨0, -1, none, denotes_zero⟩
  · next nonzero =>
      obtain ⟨exponent?, denotes, _⟩ :=
        denotes_text (Decimal.significand_shortest_ne_zero nonzero _)
      exact ⟨_, _, _, denotes⟩

end Texts

/-- A sign in front changes nothing else. -/
def Numeral.withSign (numeral : Numeral) (isNegative : Bool) : Numeral :=
  { numeral with isNegative }

/-- A sign stands before the numeral and changes nothing in it. -/
theorem Numeral.Shows.bytes_withSign {numeral : Numeral} {text : String} {significand : Nat}
    {scale : Int} {exponent? : Option Int} (shows : numeral.Shows text significand scale exponent?)
    (isNegative : Prop) [Decidable isNegative] :
    (numeral.withSign isNegative).bytes =
      Text.bytes ((if isNegative then "-" else "") ++ text) := by
  have mark : Text.bytes "-" = [minus] := Text.bytes_eq _
  have empty : Text.bytes "" = [] := Text.bytes_eq _
  rw [bytes_append, ← shows.bytes_eq]
  simp only [Numeral.bytes, withSign, shows.unsigned]
  by_cases negative : isNegative
  · rw [if_pos negative, decide_eq_true negative, mark]
    rfl
  · rw [if_neg negative, decide_eq_false negative, empty, List.nil_append]

/-- The text of a float is a numeral and no integer. -/
theorem exists_numeral_floatText {value : Float} {text : String}
    (found : Decimal.floatText? value = some text) :
    ∃ numeral : Numeral, numeral.bytes = bytes text ∧ ¬ numeral.IsIntegral := by
  unfold Decimal.floatText? at found
  dsimp only at found
  split at found
  · cases found
    obtain ⟨_, _, _, numeral, shows⟩ :=
      exists_denotes_magnitudeText (value.toBits.toNat % Nat.pow 2 63)
    exact ⟨_, shows.bytes_withSign (value.toBits.toNat / Nat.pow 2 63 = 1), shows.notIntegral⟩
  · cases found

/-- A float that has a text is printed as the numeral that its text is. -/
theorem prints_ofFloat {value : Float} {text : String}
    (found : Decimal.floatText? value = some text) {numeral : Numeral}
    (same : numeral.bytes = bytes text) : Prints (.ofFloat value) (.number numeral) := by
  have printed : (Json.ofFloat value).compact = text := by
    rw [Json.ofFloat, compact, Number.text, found, Option.getD_some]
  rw [Prints, printed, ← same]
  exact .number numeral

end LightList.Json
