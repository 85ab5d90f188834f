/-
This file reads JSON numbers.

Digits are collected into a significand of 64 bits. From the first digit that would overflow it on,
digits are left out; those before the point still raise the exponent. A number without fraction and
exponent is an integer as long as it fits, except that minus zero is a float.
-/

import LightList.Decimal.Scaled
import LightList.Json.Reader
import LightList.Json.Tree

namespace LightList.Json.Reader

/-- This is the number that starts with the given value, how many digits joined it, and the rest. -/
structure Collected where
  value : Nat
  count : Nat
  rest : List UInt8

/-- Digits join the value as long as it stays below the limit. -/
def collect (limit : Nat) : Nat → Nat → List UInt8 → Collected
  | value, count, [] => ⟨value, count, []⟩
  | value, count, byte :: rest =>
      if isDigit byte ∧ value * 10 + digitValue byte < limit then
        collect limit (value * 10 + digitValue byte) (count + 1) rest
      else ⟨value, count, byte :: rest⟩

def significandLimit : Nat := Nat.pow 2 64

def exponentLimit : Nat := Nat.pow 2 31

/-- This takes the digits that fit and leaves the others. -/
def collected (limit value : Nat) : Reader (Nat × Nat) := fun input =>
  let result := collect limit value 0 input
  .ok ((result.value, result.count), result.rest)

/-- This counts the digits that follow and takes them. -/
def countDigits : Reader Nat := fun input =>
  .ok ((input.takeWhile isDigit).length, input.dropWhile isDigit)

def atDigit : Reader Bool := do
  return (← peek).any isDigit

def signed (negative : Bool) (value : Float) : Float := if negative then -value else value

def scaledFloat (negative : Bool) (significand : Nat) (exponent : Int) : Reader Float :=
  match Decimal.scaled? significand.toUInt64 exponent with
  | some value => pure (signed negative value)
  | none => fail .numberOutOfRange .behind

/-- This takes the sign of an exponent and says whether it is a minus. -/
def exponentSign : Reader Bool := do
  match ← peek with
  | none => return false
  | some byte =>
      if byte = minus then
        skipByte
        return true
      else if byte = plus then
        skipByte
        return false
      else return false

/-- An exponent that overflows makes zero, unless it is positive and the significand is not zero. -/
def exponentOverflow (negative : Bool) (significand : Nat) (below : Bool) : Reader Float := do
  if significand ≠ 0 ∧ below = false then
    skipByte
    fail .numberOutOfRange .behind
  else
    skipDigits
    return signed negative 0

/-- This reads an exponent, starting at its letter. -/
def exponentPart (negative : Bool) (significand : Nat) (start : Int) : Reader Float := do
  skipByte
  let below ← exponentSign
  match ← peek with
  | none => fail .valueEnded .behind
  | some byte =>
      skipByte
      if isDigit byte then
        let (value, _) ← collected exponentLimit (digitValue byte)
        if ← atDigit then exponentOverflow negative significand below
        else scaledFloat negative significand (if below then start - value else start + value)
      else fail .invalidNumber .behind

/-- This reads the exponent, if there is one, and puts the number together. -/
def exponentOrEnd (negative : Bool) (significand : Nat) (exponent : Int) : Reader Float := do
  if (← peek).any isExponentMark then exponentPart negative significand exponent
  else scaledFloat negative significand exponent

/-- This reads a fraction, starting at its point. -/
def fractionPart (negative : Bool) (significand : Nat) (exponent : Int) : Reader Float := do
  skipByte
  match ← peek with
  | none => fail .valueEnded .ahead
  | some byte =>
      if isDigit byte then
        let (value, count) ← collected significandLimit significand
        skipDigits
        exponentOrEnd negative value (exponent - count)
      else fail .invalidNumber .ahead

/-- An integer that does not fit is a float; so is minus zero. -/
def integer (negative : Bool) (significand : Nat) : Number :=
  if negative then
    if significand = 0 ∨ Nat.pow 2 63 < significand then .float (-significand.toUInt64.toFloat)
    else .integer (-significand)
  else .integer significand

/-- This reads what follows the digits before the point. -/
def afterDigits (negative : Bool) (significand : Nat) : Reader Number := do
  let dropped ← countDigits
  let next ← peek
  if next = some point then .float <$> fractionPart negative significand dropped
  else if next.any isExponentMark then .float <$> exponentPart negative significand dropped
  else if dropped = 0 then return integer negative significand
  else .float <$> scaledFloat negative significand dropped

/-- This reads a number after its sign. A leading zero stands alone. -/
def unsigned (negative : Bool) : Reader Number := do
  match ← peek with
  | none => fail .valueEnded .behind
  | some byte =>
      skipByte
      if byte = zero then
        if ← atDigit then fail .invalidNumber .ahead else afterDigits negative 0
      else if isDigit byte then
        let (value, _) ← collected significandLimit (digitValue byte)
        afterDigits negative value
      else fail .invalidNumber .behind

/-- This reads a number that starts with a minus or a digit. -/
def number : Reader Number := do
  if (← peek) = some minus then
    skipByte
    unsigned true
  else unsigned false

/-- This takes an exponent without reading it. -/
def skipExponent : Reader Unit := do
  skipByte
  let _ ← exponentSign
  match ← peek with
  | none => fail .invalidNumber .behind
  | some byte =>
      skipByte
      if isDigit byte then skipDigits else fail .invalidNumber .behind

def skipExponentOrEnd : Reader Unit := do
  if (← peek).any isExponentMark then skipExponent else return ()

/-- This takes a fraction without reading it. -/
def skipFraction : Reader Unit := do
  skipByte
  if ← atDigit then
    skipDigits
    skipExponentOrEnd
  else fail .invalidNumber .ahead

/-- This takes what follows the digits before the point. -/
def skipAfterDigits : Reader Unit := do
  if (← peek) = some point then skipFraction else skipExponentOrEnd

/-- This takes a number after its sign without reading it. -/
def skipUnsigned : Reader Unit := do
  match ← peek with
  | none => fail .invalidNumber .behind
  | some byte =>
      skipByte
      if byte = zero then
        if ← atDigit then fail .invalidNumber .ahead else skipAfterDigits
      else if isDigit byte then
        skipDigits
        skipAfterDigits
      else fail .invalidNumber .behind

/-- This takes a number that starts with a minus or a digit. -/
def skipNumber : Reader Unit := do
  if (← peek) = some minus then skipByte
  skipUnsigned

end LightList.Json.Reader
