/-
This file holds JSON values as they are written down, and says which bytes write them.

A number keeps its digits, and an object keeps the order of its members and those that repeat. The
bytes of a value begin and end with the value itself, so the blanks around it belong to what encloses
it.
-/

import LightList.Json.Symbol

namespace LightList.Json

def IsGap (bytes : List UInt8) : Prop := bytes.all isBlank = true

structure Digits where
  bytes : List UInt8
  nonempty : bytes ≠ []
  areDigits : bytes.all isDigit = true

/-- More digits after a value that was read so far. -/
def digitsValue (value : Nat) (digits : List UInt8) : Nat :=
  digits.foldl (fun value byte => value * 10 + digitValue byte) value

structure Exponent where
  mark : UInt8
  sign : List UInt8
  digits : Digits
  isMark : isExponentMark mark = true
  isSign : sign = [] ∨ sign = [plus] ∨ sign = [minus]

/-- A leading zero stands alone before the point. -/
structure Numeral where
  isNegative : Bool
  whole : Digits
  fraction : Option Digits
  exponent : Option Exponent
  zeroAlone : whole.bytes.head? = some zero → whole.bytes = [zero]

def Exponent.bytes (exponent : Exponent) : List UInt8 :=
  exponent.mark :: (exponent.sign ++ exponent.digits.bytes)

namespace Numeral

def signBytes (isNegative : Bool) : List UInt8 := if isNegative then [minus] else []

def fractionBytes : Option Digits → List UInt8
  | none => []
  | some digits => point :: digits.bytes

def exponentBytes : Option Exponent → List UInt8
  | none => []
  | some exponent => exponent.bytes

def bytes (numeral : Numeral) : List UInt8 :=
  signBytes numeral.isNegative ++ (numeral.whole.bytes ++
    (fractionBytes numeral.fraction ++ exponentBytes numeral.exponent))

/-- This is the value of the digits before the point. -/
def magnitude (numeral : Numeral) : Nat := digitsValue 0 numeral.whole.bytes

end Numeral

/-- These characters may be escaped by a backslash and a letter. -/
def letterEscapes : List (UInt8 × Char) :=
  [(quote, '"'), (backslash, '\\'), (slash, '/'), (letterB, '\x08'), (letterF, '\x0c'),
    (letterN, '\n'), (letterR, '\r'), (letterT, '\t')]

/-- Four hexadecimal digits in either case write a code. -/
inductive WritesCode : Nat → List UInt8 → Prop where
  | digits {first second third fourth : UInt8} {thousands hundreds tens ones : Nat} :
      hexValue? first = some thousands → hexValue? second = some hundreds →
        hexValue? third = some tens → hexValue? fourth = some ones →
          WritesCode (((thousands * 16 + hundreds) * 16 + tens) * 16 + ones)
            [first, second, third, fourth]

/-- A character stands for itself or is escaped, beyond 16 bits as a pair of surrogates. -/
inductive WritesChar : Char → List UInt8 → Prop where
  | plain {character : Char} :
      0x20 ≤ character.toNat → character ≠ '"' → character ≠ '\\' →
        WritesChar character (String.utf8EncodeChar character)
  | letter {letter : UInt8} {character : Char} :
      (letter, character) ∈ letterEscapes → WritesChar character [backslash, letter]
  | code {character : Char} {digits : List UInt8} :
      WritesCode character.toNat digits → WritesChar character (backslash :: letterU :: digits)
  | pair {character : Char} {high low : Nat} {leading trailing : List UInt8} :
      character.toNat = 0x10000 + high * 0x400 + low → low < 0x400 →
        WritesCode (0xd800 + high) leading → WritesCode (0xdc00 + low) trailing →
          WritesChar character
            (backslash :: letterU :: (leading ++ backslash :: letterU :: trailing))

inductive WritesChars : List Char → List UInt8 → Prop where
  | nil : WritesChars [] []
  | cons {character : Char} {rest : List Char} {front back : List UInt8} :
      WritesChar character front → WritesChars rest back →
        WritesChars (character :: rest) (front ++ back)

/-- The bytes stand between the quotes. -/
def WritesText (text : String) (bytes : List UInt8) : Prop := WritesChars text.toList bytes

/-- A text without special characters stands for itself. -/
theorem writesText_plain {text : String}
    (plain : (text.toList.all fun character =>
      0x20 ≤ character.toNat && character ≠ '"' && character ≠ '\\') = true) :
    WritesText text (text.toList.flatMap String.utf8EncodeChar) := by
  unfold WritesText
  generalize text.toList = characters at plain ⊢
  induction characters with
  | nil => exact .nil
  | cons character rest inductionHypothesis =>
      simp only [List.all_cons, Bool.and_eq_true, decide_eq_true_eq] at plain
      obtain ⟨⟨⟨above, notQuote⟩, notBackslash⟩, others⟩ := plain
      exact .cons (.plain above notQuote notBackslash) (inductionHypothesis others)

inductive Written where
  | null
  | boolean (value : Bool)
  | number (numeral : Numeral)
  | string (text : String)
  | array (items : List Written)
  | object (members : List (String × Written))

/-- A comma stands before every item but the first, and blanks may stand around each. -/
inductive WritesList {Item : Type} (Writes : Item → List UInt8 → Prop) :
    Bool → List Item → List UInt8 → Prop where
  | done {isFirst : Bool} {gap : List UInt8} : IsGap gap → WritesList Writes isFirst [] gap
  | first {item : Item} {rest : List Item} {gap core tail : List UInt8} :
      IsGap gap → Writes item core → WritesList Writes false rest tail →
        WritesList Writes true (item :: rest) (gap ++ (core ++ tail))
  | next {item : Item} {rest : List Item} {before after core tail : List UInt8} :
      IsGap before → IsGap after → Writes item core → WritesList Writes false rest tail →
        WritesList Writes false (item :: rest) (before ++ comma :: (after ++ (core ++ tail)))

inductive WritesMember {Value : Type} (Writes : Value → List UInt8 → Prop) :
    String × Value → List UInt8 → Prop where
  | pair {key : String} {value : Value} {text before after core : List UInt8} :
      WritesText key text → IsGap before → IsGap after → Writes value core →
        WritesMember Writes (key, value)
          (quote :: (text ++ quote :: (before ++ colon :: (after ++ core))))

namespace Written

/-- What every value has as soon as the values inside have it, all values have. -/
theorem fromInner {motive : Written → Prop} (ofNull : motive .null)
    (ofBoolean : ∀ value, motive (.boolean value))
    (ofNumber : ∀ numeral, motive (.number numeral)) (ofString : ∀ text, motive (.string text))
    (ofArray : ∀ items, (∀ item ∈ items, motive item) → motive (.array items))
    (ofObject : ∀ members, (∀ entry ∈ members, motive entry.2) → motive (.object members)) :
    ∀ tree, motive tree
  | .null => ofNull
  | .boolean value => ofBoolean value
  | .number numeral => ofNumber numeral
  | .string text => ofString text
  | .array items => ofArray items fun item _ =>
      fromInner ofNull ofBoolean ofNumber ofString ofArray ofObject item
  | .object members => ofObject members fun entry _ =>
      fromInner ofNull ofBoolean ofNumber ofString ofArray ofObject entry.2
termination_by tree => sizeOf tree
decreasing_by
  · have smaller := List.sizeOf_lt_of_mem ‹item ∈ items›
    simp only [array.sizeOf_spec]
    omega
  · have smaller := List.sizeOf_lt_of_mem ‹entry ∈ members›
    cases entry
    simp only [object.sizeOf_spec, Prod.mk.sizeOf_spec] at smaller ⊢
    omega

def nullBytes : List UInt8 := [letterN, letterU, 0x6c, 0x6c]

def booleanBytes (value : Bool) : List UInt8 :=
  if value then [letterT, letterR, letterU, 0x65] else [letterF, 0x61, 0x6c, 0x73, 0x65]

/-- These bytes write the value. -/
inductive Writes : Written → List UInt8 → Prop where
  | null : Writes .null nullBytes
  | boolean (value : Bool) : Writes (.boolean value) (booleanBytes value)
  | number (numeral : Numeral) : Writes (.number numeral) numeral.bytes
  | string {text : String} {bytes : List UInt8} :
      WritesText text bytes → Writes (.string text) (quote :: (bytes ++ [quote]))
  | array {items : List Written} {inner : List UInt8} :
      WritesList Writes true items inner →
        Writes (.array items) (openBracket :: (inner ++ [closeBracket]))
  | object {members : List (String × Written)} {inner : List UInt8} :
      WritesList (WritesMember Writes) true members inner →
        Writes (.object members) (openBrace :: (inner ++ [closeBrace]))

/-- A document is one value with blanks around it. -/
inductive WritesDocument (tree : Written) : List UInt8 → Prop where
  | around {before core after : List UInt8} :
      IsGap before → Writes tree core → IsGap after → WritesDocument tree (before ++ (core ++ after))

end Written

end LightList.Json
