/-
This file finds the fewest decimal digits that still read back as a given binary value.

A value stands for the interval of reals that round to it. The digits are searched on the decimal
grids from one digit upward: the first grid with a point in the interval gives them, and of two such
points the nearer one, with a tie going to the even digit.
-/

namespace LightList.Decimal

/-- The value is the significand times ten to the exponent. -/
structure Digits where
  significand : Nat
  exponent : Int
deriving DecidableEq

/-- The bounds and the centre are fractions over one denominator. -/
structure Interval where
  denominator : Nat
  low : Nat
  centre : Nat
  high : Nat
  inclusive : Bool

namespace Interval

/--
This is the interval that rounds to `significand · 2 ^ power`. Below a power of two the gap to the
lower neighbour is half as wide, except at the bottom of the range.
-/
def ofBinary (significand : Nat) (power : Int) : Interval :=
  let up := Nat.pow 2 power.toNat
  let below := if significand = Nat.pow 2 52 ∧ -1074 < power then 1 else 2
  { denominator := 4 * Nat.pow 2 (-power).toNat
    low := (4 * significand - below) * up
    centre := 4 * significand * up
    high := (4 * significand + 2) * up
    inclusive := significand % 2 = 0 }

/-- This compares the centre with a power of ten. -/
def atLeastPower (interval : Interval) (exponent : Int) : Bool :=
  interval.denominator * Nat.pow 10 exponent.toNat ≤
    interval.centre * Nat.pow 10 (-exponent).toNat

/-- The centre lies from this power of ten up to the next; the guess is off by one at most. -/
def leadingExponent (interval : Interval) : Int :=
  let guess := ((interval.centre.log2 : Int) - interval.denominator.log2) * 30103 / 100000
  if interval.atLeastPower (guess + 1) then guess + 1
  else if interval.atLeastPower guess then guess
  else guess - 1

/-- This says whether a point of the grid of a power of ten rounds to the centre. -/
def contains (interval : Interval) (digits : Digits) : Bool :=
  let point := digits.significand * interval.denominator * Nat.pow 10 digits.exponent.toNat
  let scale := Nat.pow 10 (-digits.exponent).toNat
  if interval.inclusive then
    interval.low * scale ≤ point && point ≤ interval.high * scale
  else interval.low * scale < point && point < interval.high * scale

/-- This takes the nearest point of one grid, if the interval holds any. -/
def onGrid? (interval : Interval) (exponent : Int) : Option Digits :=
  let unit := interval.denominator * Nat.pow 10 exponent.toNat
  let scaled := interval.centre * Nat.pow 10 (-exponent).toNat
  let floor : Digits := ⟨scaled / unit, exponent⟩
  let ceiling : Digits := ⟨scaled / unit + 1, exponent⟩
  match interval.contains floor, interval.contains ceiling with
  | false, false => none
  | true, false => some floor
  | false, true => some ceiling
  | true, true =>
      let remainder := scaled % unit
      if 2 * remainder < unit then some floor
      else if unit < 2 * remainder then some ceiling
      else if floor.significand % 2 = 0 then some floor
      else some ceiling

/-- This tries one more digit each time; seventeen digits always suffice. -/
def search (interval : Interval) : Nat → Int → Option Digits
  | 0, _ => none
  | count + 1, exponent =>
      match interval.onGrid? exponent with
      | some digits => some digits
      | none => interval.search count (exponent - 1)

end Interval

/-- Zeros at the end move into the exponent. -/
def Digits.trim : Nat → Digits → Digits
  | 0, digits => digits
  | count + 1, digits =>
      if digits.significand ≠ 0 ∧ digits.significand % 10 = 0 then
        trim count ⟨digits.significand / 10, digits.exponent + 1⟩
      else digits

/-- This is the shortest decimal of a positive value `significand · 2 ^ power`. -/
def shortest (significand : Nat) (power : Int) : Digits :=
  let interval := Interval.ofBinary significand power
  match interval.search 17 interval.leadingExponent with
  | some digits => digits.trim 20
  | none => ⟨significand, 0⟩

end LightList.Decimal
