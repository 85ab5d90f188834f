/-
This file names the bytes that JSON text is built from.
-/

namespace LightList.Json

abbrev quote : UInt8 := 0x22
abbrev plus : UInt8 := 0x2b
abbrev comma : UInt8 := 0x2c
abbrev minus : UInt8 := 0x2d
abbrev point : UInt8 := 0x2e
abbrev slash : UInt8 := 0x2f
abbrev zero : UInt8 := 0x30
abbrev nine : UInt8 := 0x39
abbrev colon : UInt8 := 0x3a
abbrev openBracket : UInt8 := 0x5b
abbrev backslash : UInt8 := 0x5c
abbrev closeBracket : UInt8 := 0x5d
abbrev openBrace : UInt8 := 0x7b
abbrev closeBrace : UInt8 := 0x7d
abbrev lineFeed : UInt8 := 0x0a
abbrev letterB : UInt8 := 0x62
abbrev letterF : UInt8 := 0x66
abbrev letterN : UInt8 := 0x6e
abbrev letterR : UInt8 := 0x72
abbrev letterT : UInt8 := 0x74
abbrev letterU : UInt8 := 0x75

/-- Blanks are the space, the tab, the line feed and the carriage return. -/
def isBlank (byte : UInt8) : Bool :=
  byte == 0x20 || byte == 0x09 || byte == lineFeed || byte == 0x0d

def isDigit (byte : UInt8) : Bool := zero ≤ byte && byte ≤ nine

def digitValue (byte : UInt8) : Nat := byte.toNat - zero.toNat

/-- The exponent of a number starts with this letter in either case. -/
def isExponentMark (byte : UInt8) : Bool := byte == 0x65 || byte == 0x45

def hexValue? (byte : UInt8) : Option Nat :=
  if isDigit byte then some (digitValue byte)
  else if 0x61 ≤ byte && byte ≤ 0x66 then some (byte.toNat - 0x61 + 10)
  else if 0x41 ≤ byte && byte ≤ 0x46 then some (byte.toNat - 0x41 + 10)
  else none

end LightList.Json
