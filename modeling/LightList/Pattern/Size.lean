/-
This file holds how much memory an expression takes, and what is refused for that.

Repetitions are unrolled, so a short pattern can take much memory.
-/

import LightList.Pattern.Expression

namespace LightList.Pattern

namespace Expression

def stateBytes : Nat := 32

/-- A branch refers to its two ways on. -/
def branchBytes : Nat := 40

/-- A class within the first 128 characters is one table of few ranges. -/
def narrowClassBytes : Nat := 80

/-- A class with the last character of all needs tables for several bytes. -/
def wideClassBytes : Nat := 1000

def lastChar : Char := Char.ofNat 0x10FFFF

/-- What can be left out or repeated without end needs branches besides its copies. -/
def bytes : Expression → Nat
  | empty => stateBytes
  | letter character => character.utf8Size * stateBytes
  | oneOf test => if test lastChar then wideClassBytes else narrowClassBytes
  | look _ => stateBytes
  | both first second => first.bytes + second.bytes
  | either first second => branchBytes + first.bytes + second.bytes
  | repeated item least (some most) =>
      least * item.bytes +
        (if least = most then 0 else (most - least) * (item.bytes + branchBytes) + stateBytes)
  | repeated item least none =>
      max least 1 * item.bytes + branchBytes +
        (if item.isNullable then branchBytes + stateBytes else 0)

/-- Every pattern takes these for its start and its end. -/
def fixedBytes : Nat := 168

def byteLimit : Nat := 10485760

def isTooLarge (expression : Expression) : Bool := byteLimit < fixedBytes + expression.bytes

end Expression

end LightList.Pattern
