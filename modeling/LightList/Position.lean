/-
This file holds positions on the globe and the mean of several of them.
-/

namespace LightList

/-- Longitude and latitude are WGS-84 degrees. -/
structure Position where
  lon : Float
  lat : Float
deriving DecidableEq

namespace Position

def zero : Position := ⟨0, 0⟩

def add (first second : Position) : Position := ⟨first.lon + second.lon, first.lat + second.lat⟩

/-- The sum runs from left to right and starts at zero, so its bits depend on the order. -/
def sum (positions : List Position) : Position := positions.foldl add zero

/-- This is the plain arithmetic mean in degrees; no position has no mean. -/
def mean? (positions : List Position) : Option Position :=
  if positions.isEmpty then none
  else
    let count := Float.ofNat positions.length
    let total := sum positions
    some ⟨total.lon / count, total.lat / count⟩

/-- Two positions agree when their floats compare equal; a value that is no number never does. -/
def agrees (first second : Position) : Bool :=
  first.lon == second.lon && first.lat == second.lat

/-- Only an empty list of positions has no mean. -/
theorem mean?_eq_none_iff {positions : List Position} :
    mean? positions = none ↔ positions = [] := by
  cases positions <;> simp [mean?]

end Position

end LightList
