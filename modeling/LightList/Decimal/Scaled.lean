/-
This file turns a decimal significand and a power of ten into a float.

The significand is rounded once and each step of scaling rounds again, so the result can differ in
the last place from the nearest float.
-/

namespace LightList.Decimal

def powerOfTen (exponent : Nat) : Float := Float.ofScientific 1 false exponent

/-- The largest exponent whose power of ten is a finite float. -/
def largestPower : Nat := 308

/-- A negative exponent is taken off in steps of the largest power; zero stays zero. -/
def divided : Nat → Float → Nat → Float
  | 0, value, exponent => value / powerOfTen exponent
  | steps + 1, value, exponent =>
      if exponent ≤ largestPower then value / powerOfTen exponent
      else if value == 0 then value
      else divided steps (value / powerOfTen largestPower) (exponent - largestPower)

/-- There is no result when a value other than zero grows beyond the finite floats. -/
def scaled? (significand : UInt64) (exponent : Int) : Option Float :=
  let value := significand.toFloat
  if exponent < 0 then
    some (divided (exponent.natAbs / largestPower) value exponent.natAbs)
  else if exponent ≤ largestPower then
    let raised := value * powerOfTen exponent.natAbs
    if raised.isInf then none else some raised
  else if value == 0 then some value
  else none

end LightList.Decimal
