/-
This file holds sets of code points given as ranges.
-/

namespace LightList.Text

/-- Both ends belong to the range. -/
structure CodeRange where
  first : Nat
  last : Nat

namespace CodeRange

def contains (range : CodeRange) (code : Nat) : Bool := range.first ≤ code && code ≤ range.last

/-- The pairs of a table become ranges. -/
def ofPairs (pairs : List (Nat × Nat)) : List CodeRange :=
  pairs.map fun pair => ⟨pair.1, pair.2⟩

def anyContains (ranges : List CodeRange) (code : Nat) : Bool :=
  ranges.any fun range => range.contains code

/-- Ascending ranges leave a gap between neighbours, so no two of them can be joined. -/
def areAscending : List CodeRange → Bool
  | [] => true
  | [range] => range.first ≤ range.last
  | range :: next :: rest =>
      range.first ≤ range.last && range.last + 1 < next.first && areAscending (next :: rest)

end CodeRange

end LightList.Text
