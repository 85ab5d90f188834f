/-
This file holds places in the text of a pattern and stretches between them.
-/

namespace LightList.Pattern

/-- Lines and columns count from one; a column is one character wide. -/
structure Place where
  index : Nat
  line : Nat
  column : Nat
deriving DecidableEq

namespace Place

def start : Place := ⟨0, 1, 1⟩

/-- This is the place behind a character. -/
def after (place : Place) (character : Char) : Place :=
  if character = '\n' then ⟨place.index + 1, place.line + 1, 1⟩
  else ⟨place.index + 1, place.line, place.column + 1⟩

/-- This is the place behind several characters. -/
def afterAll (place : Place) (characters : List Char) : Place := characters.foldl after place

end Place

/-- The finish is the place behind the last character. -/
structure Extent where
  start : Place
  finish : Place
deriving DecidableEq

namespace Extent

/-- This is the empty stretch at a place. -/
def point (place : Place) : Extent := ⟨place, place⟩

def isOneLine (extent : Extent) : Bool := extent.start.line = extent.finish.line

/-- Stretches are ordered by where they start, and then by where they end. -/
def precedes (first second : Extent) : Bool :=
  first.start.index < second.start.index ||
    (first.start.index = second.start.index && first.finish.index ≤ second.finish.index)

end Extent

end LightList.Pattern
