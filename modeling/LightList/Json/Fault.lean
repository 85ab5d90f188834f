/-
This file holds why JSON text is refused, where, and in which words.
-/

import LightList.Decimal.FloatText
import LightList.Json.Symbol
import LightList.Text.Escaped

namespace LightList.Json

/-- This is what was found where something else was wanted. -/
inductive Found where
  | null
  | boolean (value : Bool)
  | integer (value : Int)
  | float (value : Float)
  | text (value : String)
  | sequence
  | map

def Found.phrase : Found → String
  | .null => "null"
  | .boolean value => s!"boolean `{value}`"
  | .integer value => s!"integer `{value}`"
  | .float value => "floating point `" ++ (Decimal.floatText? value).getD "NaN" ++ "`"
  | .text value => "string " ++ Text.escaped value
  | .sequence => "sequence"
  | .map => "map"

inductive Cause where
  | listEnded
  | objectEnded
  | stringEnded
  | valueEnded
  | expectedColon
  | expectedListEnd
  | expectedObjectEnd
  | expectedIdent
  | expectedValue
  | invalidEscape
  | invalidNumber
  | numberOutOfRange
  | invalidCodePoint
  | controlCharacter
  | keyNotString
  | loneSurrogate
  | trailingComma
  | trailingCharacters
  | hexEscapeEnded
  | nestedTooDeep
  | invalidType (found : Found) (wanted : String)
  | invalidValue (found : Found) (wanted : String)
  | invalidLength (count : Nat) (wanted : String)
  | unknownVariant (name : String) (known : List String)
  | missingField (name : String)
  | duplicateField (name : String)

/-- Several names are listed with commas between them. -/
def nameList (names : List String) : String :=
  String.intercalate ", " (names.map fun name => s!"`{name}`")

def Cause.message : Cause → String
  | .listEnded => "EOF while parsing a list"
  | .objectEnded => "EOF while parsing an object"
  | .stringEnded => "EOF while parsing a string"
  | .valueEnded => "EOF while parsing a value"
  | .expectedColon => "expected `:`"
  | .expectedListEnd => "expected `,` or `]`"
  | .expectedObjectEnd => "expected `,` or `\x7d`"
  | .expectedIdent => "expected ident"
  | .expectedValue => "expected value"
  | .invalidEscape => "invalid escape"
  | .invalidNumber => "invalid number"
  | .numberOutOfRange => "number out of range"
  | .invalidCodePoint => "invalid unicode code point"
  | .controlCharacter => "control character (\\u0000-\\u001F) found while parsing a string"
  | .keyNotString => "key must be a string"
  | .loneSurrogate => "lone leading surrogate in hex escape"
  | .trailingComma => "trailing comma"
  | .trailingCharacters => "trailing characters"
  | .hexEscapeEnded => "unexpected end of hex escape"
  | .nestedTooDeep => "recursion limit exceeded"
  | .invalidType found wanted => s!"invalid type: {found.phrase}, expected {wanted}"
  | .invalidValue found wanted => s!"invalid value: {found.phrase}, expected {wanted}"
  | .invalidLength count wanted => s!"invalid length {count}, expected {wanted}"
  | .unknownVariant name known =>
      s!"unknown variant `{name}`, expected one of {nameList known}"
  | .missingField name => s!"missing field `{name}`"
  | .duplicateField name => s!"duplicate field `{name}`"

/-- A fault lies behind the bytes left unread, on the next of them, or with the enclosing value. -/
inductive Mark where
  | behind
  | ahead
  | enclosing
deriving DecidableEq

structure Fault where
  cause : Cause
  mark : Mark
  rest : List UInt8

/-- A fault that was left to the enclosing value gets its place there. -/
def Fault.settle (fault : Fault) (rest : List UInt8) : Fault :=
  if fault.mark = .enclosing then ⟨fault.cause, .behind, rest⟩ else fault

/-- Lines count from one; the column is the number of bytes that precede on the line. -/
structure Location where
  line : Nat
  column : Nat
deriving DecidableEq

def Location.ofOffset (document : List UInt8) (offset : Nat) : Location :=
  let before := document.take offset
  ⟨before.count lineFeed + 1, (before.reverse.takeWhile fun byte => byte != lineFeed).length⟩

structure Error where
  cause : Cause
  location : Option Location

def Error.message (error : Error) : String :=
  match error.location with
  | none => error.cause.message
  | some location =>
      s!"{error.cause.message} at line {location.line} column {location.column}"

/-- The place ahead of the last byte is the end of the document. -/
def Fault.error (fault : Fault) (document : List UInt8) : Error :=
  let offset := document.length - fault.rest.length
  match fault.mark with
  | .behind => ⟨fault.cause, some (.ofOffset document offset)⟩
  | .ahead => ⟨fault.cause, some (.ofOffset document (offset + 1))⟩
  | .enclosing => ⟨fault.cause, none⟩

end LightList.Json
