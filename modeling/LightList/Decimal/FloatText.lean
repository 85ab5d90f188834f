/-
This file writes floats as decimal text.

The digits are the shortest ones that read back. The point is written out from 0.00001 up to below
ten to the sixteenth, and always has a digit on both sides; beyond that an exponent with its sign
follows.
-/

import LightList.Decimal.Shortest

namespace LightList.Decimal

/-- The leading exponents for which the point is written out. -/
def isPositional (leading : Int) : Bool := -5 ≤ leading && leading < 16

def zeros (count : Nat) : String := String.ofList (List.replicate count '0')

def Digits.positionalText (digits : Digits) : String :=
  let text := digits.significand.repr
  let whole := (text.length : Int) + digits.exponent
  if whole ≤ 0 then "0." ++ zeros (-whole).toNat ++ text
  else if 0 ≤ digits.exponent then text ++ zeros digits.exponent.toNat ++ ".0"
  else
    String.ofList (text.toList.take whole.toNat) ++ "." ++
      String.ofList (text.toList.drop whole.toNat)

def exponentText (exponent : Int) : String :=
  if exponent < 0 then "e-" ++ exponent.natAbs.repr else "e+" ++ exponent.natAbs.repr

def Digits.scientificText (digits : Digits) : String :=
  let text := digits.significand.repr
  let leading := (text.length : Int) + digits.exponent - 1
  let fraction := text.toList.drop 1
  String.ofList (text.toList.take 1) ++
    (if fraction.isEmpty then "" else "." ++ String.ofList fraction) ++ exponentText leading

def Digits.text (digits : Digits) : String :=
  if isPositional ((digits.significand.repr.length : Int) + digits.exponent - 1) then
    digits.positionalText
  else digits.scientificText

/-- This splits the bits of a finite double into its significand and its power of two. -/
def binaryParts (bits : Nat) : Nat × Int :=
  let fraction : Nat := bits % Nat.pow 2 52
  let biased : Nat := bits / Nat.pow 2 52 % Nat.pow 2 11
  if biased = 0 then (fraction, -1074) else (Nat.pow 2 52 + fraction, (biased : Int) - 1075)

def magnitudeText (bits : Nat) : String :=
  let parts := binaryParts bits
  if parts.1 = 0 then "0.0" else (shortest parts.1 parts.2).text

/-- Infinities and values that are no number have no decimal text. -/
def floatText? (value : Float) : Option String :=
  let bits := value.toBits.toNat
  if value.isFinite then
    some ((if bits / Nat.pow 2 63 = 1 then "-" else "") ++ magnitudeText (bits % Nat.pow 2 63))
  else none

end LightList.Decimal
