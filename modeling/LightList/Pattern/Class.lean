/-
This file holds which characters belong to a class under given settings.

Without Unicode a class is one of bytes, and only those below 128 are whole characters. Properties
of characters are not known, nor which characters differ in case alone, except below 128.
-/

import LightList.Pattern.Fault
import LightList.Pattern.Tree

namespace LightList.Pattern

structure Settings where
  isCaseless : Bool
  hasManyLines : Bool
  dotMatchesAll : Bool
  isUnicode : Bool
  hasReturns : Bool
deriving DecidableEq

namespace Settings

/-- A pattern starts with these settings. -/
def initial : Settings := ⟨false, false, false, true, false⟩

/-- What is not switched stays as it is. -/
def apply (settings : Settings) (switches : List Switch) : Settings :=
  { isCaseless := (switch? switches .caseless).getD settings.isCaseless
    hasManyLines := (switch? switches .manyLines).getD settings.hasManyLines
    dotMatchesAll := (switch? switches .dotAll).getD settings.dotMatchesAll
    isUnicode := (switch? switches .unicode).getD settings.isUnicode
    hasReturns := (switch? switches .carriageReturns).getD settings.hasReturns }

end Settings

def refuse {Value : Type} (cause : Cause) (extent : Extent) : Except Fault Value :=
  .error ⟨cause, extent, none⟩

def isAscii (character : Char) : Bool := character.toNat < 128

def isBlankOrTab (character : Char) : Bool := character = ' ' || character = '\t'

def Ascii.holds (kind : Ascii) (character : Char) : Bool :=
  let isGraphic := '!' ≤ character && character ≤ '~'
  match kind with
  | alnum => character.isAlphanum
  | alpha => character.isAlpha
  | ascii => isAscii character
  | blank => isBlankOrTab character
  | cntrl => character < ' ' || character = '\x7f'
  | digit => character.isDigit
  | graph => isGraphic
  | lower => character.isLower
  | print => isGraphic || character = ' '
  | punct => isGraphic && !character.isAlphanum
  | space => isBlankOrTab character || ('\n' ≤ character && character ≤ '\r')
  | upper => character.isUpper
  | word => character.isAlphanum || character = '_'
  | xdigit => character.isDigit || ('a' ≤ character && character ≤ 'f') ||
      ('A' ≤ character && character ≤ 'F')

/-- Below 128 a letter has one relative, which differs in case alone. -/
def relative (character : Char) : Char :=
  if character.isUpper then character.toLower
  else if character.isLower then character.toUpper
  else character

/-- A class that names characters has members whose relatives may be missing. -/
structure CharClass where
  holds : Char → Bool
  namesCharacters : Bool

namespace CharClass

def nobody : CharClass := ⟨fun _ => false, false⟩

def ofTest (holds : Char → Bool) : CharClass := ⟨holds, true⟩

def union (first second : CharClass) : CharClass :=
  ⟨fun character => first.holds character || second.holds character,
    first.namesCharacters || second.namesCharacters⟩

def combine (operation : Operation) (left right : CharClass) : CharClass :=
  let holds := fun character =>
    match operation with
    | .intersection => left.holds character && right.holds character
    | .difference => left.holds character && !right.holds character
    | .symmetricDifference => left.holds character != right.holds character
  ⟨holds, left.namesCharacters || right.namesCharacters⟩

/-- Where case does not count, the relatives of all members belong to the class. -/
def withRelatives (settings : Settings) (extent : Extent) (given : CharClass) :
    Except Fault CharClass :=
  if !settings.isCaseless then .ok given
  else if settings.isUnicode then
    if given.namesCharacters then refuse .caseUnknown extent else .ok given
  else .ok ⟨fun character => given.holds character || given.holds (relative character),
    given.namesCharacters⟩

/-- Without Unicode the negation of a class holds bytes that are no characters. -/
def negated (settings : Settings) (extent : Extent) (isNegated : Bool) (given : CharClass) :
    Except Fault CharClass :=
  if !isNegated then .ok given
  else if settings.isUnicode then
    .ok ⟨fun character => !given.holds character, given.namesCharacters⟩
  else refuse .invalidUtf8 extent

/-- Relatives are added first, so that a negated class holds none of them. -/
def closed (settings : Settings) (extent : Extent) (isNegated : Bool) (given : CharClass) :
    Except Fault CharClass :=
  match given.withRelatives settings extent with
  | .error fault => .error fault
  | .ok whole => whole.negated settings extent isNegated

end CharClass

namespace Literal

/-- Without Unicode two hexadecimal digits stand for a byte, which may be no character. -/
def character? (settings : Settings) (value : Literal) : Except Fault Char :=
  if !settings.isUnicode && value.isByte && !isAscii value.character then
    refuse .invalidUtf8 value.extent
  else .ok value.character

/-- A class of bytes has only members below 128. -/
def member? (settings : Settings) (value : Literal) : Except Fault Char :=
  match value.character? settings with
  | .error fault => .error fault
  | .ok character =>
      if settings.isUnicode || isAscii character then .ok character
      else refuse .unicodeNotAllowed value.extent

end Literal

/-- A name is compared without its case, its separators and a leading "is". -/
def propertyKey (name : String) : List Char :=
  let letters := name.toList.map Char.toLower
  let rest := if ['i', 's'].isPrefixOf letters then letters.drop 2 else letters
  rest.filter fun letter => isAscii letter && letter != ' ' && letter != '_' && letter != '-'

/-- These three could name a property or the value of one, and are taken for values. -/
def valueKeys : List (List Char) := [['c', 'f'], ['s', 'c'], ['l', 'c']]

namespace NamedClass

def propertyFault (name : String) : Cause :=
  if valueKeys.contains (propertyKey name) then .propertyValueUnknown else .propertyUnknown

def meaning (settings : Settings) (extent : Extent) : NamedClass → Except Fault CharClass
  | letter kind isNegated =>
      if settings.isUnicode then refuse .escapeClassUnknown extent
      else (CharClass.ofTest kind.holds).negated settings extent isNegated
  | property name =>
      if settings.isUnicode then refuse (propertyFault name) extent
      else refuse .unicodeNotAllowed extent

end NamedClass

namespace Members

mutual

/--
The parts are taken in the order in which they are written, and then an operator's right side is
completed before its left side.
-/
def meaning (settings : Settings) : Members → Except Fault CharClass
  | none _ => .ok .nobody
  | literal value => do
      let character ← value.member? settings
      return .ofTest fun other => other = character
  | range first last _ => do
      let low ← first.member? settings
      let high ← last.member? settings
      return .ofTest fun other => low ≤ other && other ≤ high
  | ascii kind isNegated extent =>
      (CharClass.ofTest kind.holds).closed settings extent isNegated
  | named name extent => name.meaning settings extent
  | bracketed isNegated members extent => do
      let inner ← meaning settings members
      inner.closed settings extent isNegated
  | union parts _ => meaningOfParts settings parts
  | combined operation left right _ => do
      let first ← meaning settings left
      let second ← meaning settings right
      let secondWhole ← second.withRelatives settings right.extent
      let firstWhole ← first.withRelatives settings left.extent
      return .combine operation firstWhole secondWhole

def meaningOfParts (settings : Settings) : List Members → Except Fault CharClass
  | [] => .ok .nobody
  | part :: rest => do
      let first ← meaning settings part
      let others ← meaningOfParts settings rest
      return first.union others

end

end Members

end LightList.Pattern
