/-
This file shows that compact text is tight: it has no control character at all, no blank outside of
its strings, and it ends outside of them.
-/

import LightList.Proofs.AcceptedFloats

namespace LightList.Json

open Text

/-- A character of a JSON text stands outside of strings, inside one, or behind its backslash. -/
inductive Quoting where
  | outside
  | inside
  | escaped

/-- This is where the next character stands. -/
def Quoting.next : Quoting → Char → Quoting
  | outside, character => if character = '"' then inside else outside
  | inside, character =>
      if character = '"' then outside else if character = '\\' then escaped else inside
  | escaped, _ => inside

/-- The characters lead from one place to another without controls and without outer blanks. -/
inductive Tight : Quoting → List Char → Quoting → Prop where
  | nil (place : Quoting) : Tight place [] place
  | cons {place last : Quoting} {character : Char} {rest : List Char} :
      0x20 ≤ character.toNat → (place = .outside → character ≠ ' ') →
        Tight (place.next character) rest last → Tight place (character :: rest) last

/-- The whole text begins and ends outside of strings. -/
def IsTight (text : String) : Prop := Tight .outside text.toList .outside

namespace Tight

/-- Texts that lead from place to place can be put after one another. -/
theorem append {first middle last : Quoting} {front back : List Char}
    (frontTight : Tight first front middle) (backTight : Tight middle back last) :
    Tight first (front ++ back) last := by
  induction frontTight with
  | nil => exact backTight
  | cons noControl noBlank _ inductionHypothesis =>
      exact .cons noControl noBlank (inductionHypothesis backTight)

/-- Such a text holds no control character. -/
theorem noControl {place last : Quoting} {characters : List Char}
    (tight : Tight place characters last) : ∀ character ∈ characters, 0x20 ≤ character.toNat := by
  induction tight with
  | nil => exact fun _ member => by cases member
  | cons visible _ _ inductionHypothesis =>
      exact List.forall_mem_cons.2 ⟨visible, inductionHypothesis⟩

/-- Characters that are neither blanks nor quotes stay outside of strings. -/
theorem plain {characters : List Char}
    (each : ∀ character ∈ characters, 0x20 < character.toNat ∧ character ≠ '"') :
    Tight .outside characters .outside := by
  induction characters with
  | nil => exact .nil _
  | cons character rest inductionHypothesis =>
      obtain ⟨⟨visible, notQuote⟩, others⟩ := List.forall_mem_cons.1 each
      refine .cons visible.le ?_ ?_
      · rintro _ rfl
        exact absurd visible (by decide)
      · rw [Quoting.next, if_neg notQuote]
        exact inductionHypothesis others

/-- Characters that are neither quotes nor backslashes stay inside of a string. -/
theorem within {character : Char} (visible : 0x20 ≤ character.toNat) (notQuote : character ≠ '"')
    (notBackslash : character ≠ '\\') : Tight .inside [character] .inside := by
  refine .cons visible (fun outside => by cases outside) ?_
  rw [Quoting.next, if_neg notQuote, if_neg notBackslash]
  exact .nil _

/-- Whatever follows the backslash belongs to the string. -/
theorem behindBackslash {character : Char} (visible : 0x20 ≤ character.toNat) :
    Tight .inside ['\\', character] .inside :=
  .cons (by decide) (fun outside => by cases outside)
    (.cons visible (fun outside => by cases outside) (.nil _))

end Tight

/-- A hexadecimal digit is neither a control character nor a quote nor a backslash. -/
theorem hexDigit_plain (value : Nat) :
    0x20 ≤ (hexDigit value).toNat ∧ hexDigit value ≠ '"' ∧ hexDigit value ≠ '\\' := by
  have table : ∀ value < 16, 0x20 ≤ (Nat.digitChar value).toNat ∧
      Nat.digitChar value ≠ '"' ∧ Nat.digitChar value ≠ '\\' := by
    decide
  exact table (value % 16) (Nat.mod_lt value (by decide))

/-- An escaped character stays inside of its string. -/
theorem tight_escapedChar (character : Char) :
    Tight .inside (escapedChar character).toList .inside := by
  unfold escapedChar
  split_ifs with isQuote isBackslash isBackspace isFeed isLine isReturn isTab isControl
  · exact .behindBackslash (by decide)
  · exact .behindBackslash (by decide)
  · exact .behindBackslash (by decide)
  · exact .behindBackslash (by decide)
  · exact .behindBackslash (by decide)
  · exact .behindBackslash (by decide)
  · exact .behindBackslash (by decide)
  · have digit (value : Nat) : Tight .inside [hexDigit value] .inside := by
      obtain ⟨visible, notQuote, notBackslash⟩ := hexDigit_plain value
      exact .within visible notQuote notBackslash
    have zeroDigit : Tight .inside ['0'] .inside := .within (by decide) (by decide) (by decide)
    rw [String.toList_append]
    refine ((Tight.behindBackslash (by decide)).append (zeroDigit.append zeroDigit)).append ?_
    rw [String.toList_ofList]
    exact (digit _).append (digit _)
  · rw [Char.toString, String.toList_singleton]
    exact .within (Nat.le_of_not_lt isControl) isQuote isBackslash

/-- Every written string begins and ends outside of strings, whatever its characters are. -/
theorem isTight_quoted (text : String) : IsTight (quoted text) := by
  have inner (characters : List Char) :
      Tight .inside (String.join (characters.map escapedChar)).toList .inside := by
    induction characters with
    | nil => exact .nil _
    | cons character rest inductionHypothesis =>
        rw [List.map_cons, String.join_cons, String.toList_append]
        exact (tight_escapedChar character).append inductionHypothesis
  have opening : Tight .outside "\"".toList .inside :=
    .cons (by decide) (fun _ => by decide) (.nil _)
  have closing : Tight .inside "\"".toList .outside :=
    .cons (by decide) (fun outside => by cases outside) (.nil _)
  rw [IsTight, quoted, String.toList_append, String.toList_append]
  exact (opening.append (inner text.toList)).append closing

/-- A mark between values is no quote and no blank. -/
theorem isTight_mark {mark : String}
    (plain : (mark.toList.all fun character => 0x20 < character.toNat && character ≠ '"') = true) :
    IsTight mark := by
  apply Tight.plain
  intro character member
  simpa using List.all_eq_true.1 plain character member

section Numbers

/-- These bytes are neither blanks nor quotes. -/
def IsPlain (bytes : List UInt8) : Prop := ∀ byte ∈ bytes, 0x20 < byte.toNat ∧ byte ≠ quote

theorem IsPlain.nil : IsPlain [] := List.forall_mem_nil _

theorem IsPlain.single {byte : UInt8} (plain : 0x20 < byte.toNat ∧ byte ≠ quote) :
    IsPlain [byte] :=
  List.forall_mem_singleton.2 plain

theorem IsPlain.append {front back : List UInt8} (frontPlain : IsPlain front)
    (backPlain : IsPlain back) : IsPlain (front ++ back) :=
  List.forall_mem_append.2 ⟨frontPlain, backPlain⟩

theorem Digits.isPlain (digits : Digits) : IsPlain digits.bytes := by
  intro byte member
  have digit := List.all_eq_true.1 digits.areDigits byte member
  have lowest : zero.toNat = 48 := rfl
  simp only [isDigit, Bool.and_eq_true, decide_eq_true_eq, UInt8.le_iff_toNat_le, lowest] at digit
  constructor
  · omega
  · rintro rfl
    exact absurd digit.1 (by decide)

theorem Exponent.isPlain (exponent : Exponent) : IsPlain exponent.bytes := by
  have mark : IsPlain [exponent.mark] := by
    have isMark := exponent.isMark
    simp only [isExponentMark, Bool.or_eq_true, beq_iff_eq] at isMark
    apply IsPlain.single
    rcases isMark with same | same <;> rw [same] <;> decide
  have sign : IsPlain exponent.sign := by
    rcases exponent.isSign with same | same | same <;> rw [same]
    · exact .nil
    · exact .single (by decide)
    · exact .single (by decide)
  exact mark.append (sign.append exponent.digits.isPlain)

/-- The bytes of a numeral are digits, signs, points and letters. -/
theorem Numeral.isPlain (numeral : Numeral) : IsPlain numeral.bytes := by
  have sign : IsPlain (signBytes numeral.isNegative) := by
    cases numeral.isNegative with
    | false => exact .nil
    | true => exact .single (by decide)
  have fraction : IsPlain (fractionBytes numeral.fraction) := by
    cases numeral.fraction with
    | none => exact .nil
    | some digits =>
        have mark : IsPlain [point] := .single (by decide)
        exact mark.append digits.isPlain
  have exponent : IsPlain (exponentBytes numeral.exponent) := by
    cases numeral.exponent with
    | none => exact .nil
    | some exponent => exact exponent.isPlain
  exact sign.append (numeral.whole.isPlain.append (fraction.append exponent))

/-- A blank or a quote would show among the bytes. -/
theorem plain_of_isPlain {text : String} (isPlain : IsPlain (bytes text)) :
    ∀ character ∈ text.toList, 0x20 < character.toNat ∧ character ≠ '"' := by
  intro character member
  by_cases ascii : character.toNat < 128
  · have encoded : UInt8.ofNat character.toNat ∈ bytes text := by
      rw [bytes_eq]
      apply List.mem_flatMap.2 ⟨character, member, _⟩
      rw [utf8EncodeChar_ascii ascii]
      exact List.mem_singleton_self _
    obtain ⟨visible, notQuote⟩ := isPlain _ encoded
    have small : (UInt8.ofNat character.toNat).toNat = character.toNat :=
      UInt8.toNat_ofNat_of_lt' (by change character.toNat < 256; omega)
    rw [small] at visible
    refine ⟨visible, ?_⟩
    rintro rfl
    exact notQuote rfl
  · refine ⟨by omega, ?_⟩
    rintro rfl
    exact ascii (by decide)

/-- A text that is a numeral stands outside of strings throughout. -/
theorem isTight_of_numeral {numeral : Numeral} {text : String}
    (same : numeral.bytes = bytes text) : IsTight text := by
  have isPlain := numeral.isPlain
  rw [same] at isPlain
  exact .plain (plain_of_isPlain isPlain)

/-- Every written number is a numeral or null. -/
theorem isTight_number (value : Number) : IsTight value.text := by
  cases value with
  | integer value => exact isTight_of_numeral (Numeral.bytes_ofInt value)
  | float value =>
      cases isFinite : value.isFinite with
      | true =>
          obtain ⟨numeral, same⟩ := exists_numeral_ofFloat isFinite
          rw [ofFloat, compact] at same
          exact isTight_of_numeral same
      | false =>
          rw [Number.text, Decimal.floatText?_of_not isFinite]
          exact isTight_mark (by decide)

end Numbers

/-- Whole texts can be put after one another. -/
theorem IsTight.append {front back : String} (frontTight : IsTight front)
    (backTight : IsTight back) : IsTight (front ++ back) := by
  rw [IsTight, String.toList_append]
  exact Tight.append frontTight backTight

-- The cases are those of the printer, which treats the first item and the first member apart.
mutual

/-- Compact text is tight, whatever its strings hold. -/
theorem isTight_compact (tree : Json) : IsTight tree.compact := by
  match tree with
  | .null =>
      rw [compact]
      exact isTight_mark (by decide)
  | .boolean value =>
      rw [compact]
      cases value <;> exact isTight_mark (by decide)
  | .number value =>
      rw [compact]
      exact isTight_number value
  | .string value =>
      rw [compact]
      exact isTight_quoted value
  | .array [] =>
      rw [compact]
      exact isTight_mark (by decide)
  | .array (item :: rest) =>
      rw [compact]
      exact (((isTight_mark (by decide)).append (isTight_compact item)).append
        (isTight_compactItems rest)).append (isTight_mark (by decide))
  | .object [] =>
      rw [compact]
      exact isTight_mark (by decide)
  | .object ((key, value) :: rest) =>
      rw [compact]
      exact (((((isTight_mark (by decide)).append (isTight_quoted key)).append
        (isTight_mark (by decide))).append (isTight_compact value)).append
          (isTight_compactMembers rest)).append (isTight_mark (by decide))

/-- The further items of an array, each after its comma, are a whole text. -/
theorem isTight_compactItems (items : List Json) : IsTight (compactItems items) := by
  match items with
  | [] =>
      rw [compactItems]
      exact .nil _
  | item :: rest =>
      rw [compactItems]
      exact ((isTight_mark (by decide)).append (isTight_compact item)).append
        (isTight_compactItems rest)

/-- The further members of an object, each after its comma, are a whole text. -/
theorem isTight_compactMembers (members : List (String × Json)) :
    IsTight (compactMembers members) := by
  match members with
  | [] =>
      rw [compactMembers]
      exact .nil _
  | (key, value) :: rest =>
      rw [compactMembers]
      exact ((((isTight_mark (by decide)).append (isTight_quoted key)).append
        (isTight_mark (by decide))).append (isTight_compact value)).append
          (isTight_compactMembers rest)

end

end LightList.Json
