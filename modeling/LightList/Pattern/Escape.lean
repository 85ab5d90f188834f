/-
This file reads what follows a backslash in a pattern.
-/

import LightList.Pattern.Scan
import LightList.Pattern.Tree

namespace LightList.Pattern

/-- These characters have a meaning of their own unless a backslash stands before them. -/
def metaCharacters : List Char :=
  ['\\', '.', '+', '*', '?', '(', ')', '|', '[', ']', '\x7b', '\x7d', '^', '$', '#', '&', '-', '~']

/-- Letters and digits get a meaning by a backslash, and so do the angle brackets. -/
def isEscapable (character : Char) : Bool :=
  metaCharacters.contains character ||
    (character.toNat < 128 && !character.isAlphanum && character != '<' && character != '>')

/-- These letters stand for controls. -/
def controls : List (Char × Char) :=
  [('a', '\x07'), ('f', '\x0c'), ('t', '\t'), ('n', '\n'), ('r', '\r'), ('v', '\x0b')]

def assertions : List (Char × Assertion) :=
  [('A', .textStart), ('z', .textEnd), ('b', .word .boundary), ('B', .word .notBoundary),
    ('<', .word .start), ('>', .word .finish)]

/-- These letters stand for classes. -/
def letterClasses : List (Char × NamedClass) :=
  [('d', .letter .digit false), ('D', .letter .digit true), ('s', .letter .space false),
    ('S', .letter .space true), ('w', .letter .word false), ('W', .letter .word true)]

/-- The names of special boundaries stand in braces. -/
def edgeNames : List (String × WordEdge) :=
  [("start", .start), ("end", .finish), ("start-half", .halfStart), ("end-half", .halfEnd)]

def hexDigit? (character : Char) : Option Nat :=
  if character.isDigit then some (character.toNat - '0'.toNat)
  else if 'a' ≤ character ∧ character ≤ 'f' then some (character.toNat - 'a'.toNat + 10)
  else if 'A' ≤ character ∧ character ≤ 'F' then some (character.toNat - 'A'.toNat + 10)
  else none

/-- Not every number is the code of a character. -/
def charOfCode? (code : Nat) : Option Char :=
  if code.isValidChar then some (Char.ofNat code) else none

namespace Scanner

/-- This takes one hexadecimal digit that is not yet left behind. -/
def hexDigit : Scanner Nat := do
  match ← next? with
  | none => fail .escapeEnded (← charExtent)
  | some character =>
      match hexDigit? character with
      | none => fail .escapeHexDigit (← charExtent)
      | some digit =>
          let _ ← advance
          return digit

/-- This reads so many digits. -/
def hexDigits : Nat → Nat → Scanner Nat
  | 0, code => return code
  | count + 1, code => do
      let digit ← hexDigit
      hexDigits count (code * 16 + digit)

def fixedHex (start : Place) (count : Nat) : Scanner Tree := do
  let first ← here
  let code ← hexDigits count 0
  match charOfCode? code with
  | none => fail .escapeHexInvalid (← since first)
  | some character => return .literal ⟨character, count = 2, ← since start⟩

/-- The digits in braces may be any number of digits. -/
def bracedDigits : List Char → List Nat → Scanner (List Nat)
  | [], digits => return digits.reverse
  | _ :: bound, digits => do
      match ← next? with
      | none | some '\x7d' => return digits.reverse
      | some _ =>
          let digit ← hexDigit
          bracedDigits bound (digit :: digits)

def bracedHex (start : Place) : Scanner Tree := do
  let brace ← here
  let first := (← charExtent).finish
  let _ ← advance
  let digits ← fun scan => bracedDigits scan.rest [] scan
  let last ← here
  if (← next?).isNone then fail .escapeEnded (← since brace)
  else
    let _ ← advance
    if digits.isEmpty then fail .escapeHexEmpty (← since brace)
    else
      match charOfCode? (digits.foldl (fun code digit => code * 16 + digit) 0) with
      | none => fail .escapeHexInvalid ⟨first, last⟩
      | some character => return .literal ⟨character, false, ← since start⟩

/-- The letter says how many digits there are without braces. -/
def hexLiteral (start : Place) (letter : Char) : Scanner Tree := do
  if ← advance then
    if (← next?) = some '\x7b' then bracedHex start
    else fixedHex start (if letter = 'x' then 2 else if letter = 'u' then 4 else 8)
  else fail .escapeEnded (← charExtent)

/-- Nothing depends on whether the property is negated, because none is known. -/
def property (start : Place) : Scanner Tree := do
  if ← advance then
    match ← next? with
    | some '\x7b' =>
        let _ ← advance
        let name ← takeAll fun character => character != '\x7d'
        if (← next?).isNone then fail .escapeEnded (← charExtent)
        else
          skip
          return .named (.property (String.ofList name)) (← since start)
    | some '\\' => fail .propertyInvalid (← charExtent)
    | some letter =>
        let _ ← advance
        return .named (.property letter.toString) (← since start)
    | none => fail .escapeEnded (← charExtent)
  else fail .escapeEnded (← charExtent)

def isBoundaryLetter (character : Char) : Bool := character.isAlpha || character = '-'

/-- Braces after a boundary that do not start with a letter belong to a repetition. -/
def boundaryName (start : Place) : Scanner (Option Assertion) := fun scan =>
  let name : Scanner (Option Assertion) := do
    let brace ← here
    if ← advance then
      let first ← here
      if ((← next?).map isBoundaryLetter) = some true then
        let letters ← takeAll isBoundaryLetter
        let extent ← since first
        if (← next?) = some '\x7d' then
          skip
          match edgeNames.lookup (String.ofList letters) with
          | some edge => return some (.word edge)
          | none => fail .boundaryUnknown extent
        else fail .boundaryUnclosed (← since brace)
      else return none
    else fail .boundaryOrCountEnded (← since start)
  match name scan with
  | .ok (some kind, later) => .ok (some kind, later)
  | .ok (none, _) => .ok (none, scan)
  | .error fault => .error fault

/-- A word boundary may be followed by its name. -/
def boundary (start : Place) : Scanner Tree := do
  if (← next?) = some '\x7b' then
    match ← boundaryName start with
    | some kind => return .assertion kind (← since start)
    | none => return .assertion (.word .boundary) (← since start)
  else return .assertion (.word .boundary) (← since start)

/-- This reads an escape of one letter or sign. -/
def shortEscape (start : Place) (letter : Char) : Scanner Tree := do
  skip
  let extent ← since start
  if isEscapable letter then return .literal ⟨letter, false, extent⟩
  else
    match controls.lookup letter, assertions.lookup letter, letterClasses.lookup letter with
    | some control, _, _ => return .literal ⟨control, false, extent⟩
    | none, some (.word .boundary), _ => boundary start
    | none, some kind, _ => return .assertion kind extent
    | none, none, some name => return .named name extent
    | none, none, none => fail .escapeUnknown extent

/-- This reads an escape from its backslash on. -/
def escape : Scanner Tree := do
  let start ← here
  skip
  match ← next? with
  | none => fail .escapeEnded (← since start)
  | some letter =>
      if letter.isDigit then fail .backreference ⟨start, (← charExtent).finish⟩
      else if letter = 'x' ∨ letter = 'u' ∨ letter = 'U' then hexLiteral start letter
      else if letter = 'p' ∨ letter = 'P' then property start
      else shortEscape start letter

end Scanner

end LightList.Pattern
