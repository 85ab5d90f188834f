/-
This file lists the code points that count as white space.
-/

import LightList.Text.CodeRange

namespace LightList.Text

/-- These are the code points of the property White_Space. -/
def blanks : List CodeRange :=
  CodeRange.ofPairs
    [(9, 13), (32, 32), (133, 133), (160, 160), (5760, 5760), (8192, 8202), (8232, 8233),
    (8239, 8239), (8287, 8287), (12288, 12288)]

def isBlank (character : Char) : Bool := CodeRange.anyContains blanks character.toNat

/-- Blanks at both ends are dropped. -/
def trim (characters : List Char) : List Char :=
  ((characters.dropWhile isBlank).reverse.dropWhile isBlank).reverse

/-- The ranges are apart from each other and in order. -/
theorem areAscending_blanks : CodeRange.areAscending blanks = true := by decide

end LightList.Text
