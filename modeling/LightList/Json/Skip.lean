/-
This file takes a JSON value of any shape without keeping it.

Only the syntax is checked: there is no limit on the depth, and neither the range of numbers nor the
content of strings matters. The brackets still open stand on a stack.
-/

import LightList.Json.NumberReader
import LightList.Json.TextReader

namespace LightList.Json

inductive Bracket where
  | list
  | object
deriving DecidableEq

namespace Bracket

def close : Bracket → UInt8
  | list => closeBracket
  | object => closeBrace

def ended : Bracket → Cause
  | list => .listEnded
  | object => .objectEnded

def expectedEnd : Bracket → Cause
  | list => .expectedListEnd
  | object => .expectedObjectEnd

end Bracket

namespace Reader

/-- This takes a value that holds no other, or the opening bracket of one that may. -/
def scalarOrBracket : Reader (Option Bracket) := do
  match ← peekToken with
  | none => fail .valueEnded .ahead
  | some byte =>
      if byte = letterN then
        skipByte
        restOfNull
        return none
      else if byte = letterT then
        skipByte
        restOfTrue
        return none
      else if byte = letterF then
        skipByte
        restOfFalse
        return none
      else if byte = minus ∨ isDigit byte then
        skipNumber
        return none
      else if byte = quote then
        skipByte
        skipText
        return none
      else if byte = openBracket then
        skipByte
        return some .list
      else if byte = openBrace then
        skipByte
        return some .object
      else fail .expectedValue .ahead

/-- This takes the closing bracket if it follows the opening one at once. -/
def closedAtOnce (bracket : Bracket) : Reader Bool := do
  match ← peekToken with
  | none => fail bracket.ended .ahead
  | some byte =>
      if byte = bracket.close then
        skipByte
        return true
      else return false

/-- After a value this takes the comma before the next one, or else the closing bracket. -/
def commaFollows (bracket : Bracket) : Reader Bool := do
  match ← peekToken with
  | none => fail bracket.ended .ahead
  | some byte =>
      if byte = comma then
        skipByte
        return true
      else if byte = bracket.close then
        skipByte
        return false
      else fail bracket.expectedEnd .ahead

/-- In an object a key and a colon come before each value. -/
def skipKey : Bracket → Reader Unit
  | .list => return ()
  | .object => do
      match ← peekToken with
      | none => fail .objectEnded .ahead
      | some byte =>
          if byte = quote then
            skipByte
            skipText
            takeColon
          else fail .keyNotString .ahead

/-- The flag says that a value is due; otherwise one has just ended. -/
def skipWithin : List UInt8 → Bool → List Bracket → Reader Unit
  | _, false, [] => return ()
  | [], false, bracket :: _ => fail bracket.ended .ahead
  | [], true, _ => fail .valueEnded .ahead
  | _ :: bound, true, stack => do
      match ← scalarOrBracket with
      | none => skipWithin bound false stack
      | some bracket =>
          if ← closedAtOnce bracket then skipWithin bound false stack
          else
            skipKey bracket
            skipWithin bound true (bracket :: stack)
  | _ :: bound, false, bracket :: stack => do
      if ← commaFollows bracket then
        skipKey bracket
        skipWithin bound true (bracket :: stack)
      else skipWithin bound false stack

def skipValue : Reader Unit := fun input => skipWithin input true [] input

end Reader

end LightList.Json
