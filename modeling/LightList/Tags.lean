/-
This file holds the tags of a map element: distinct keys in ascending order, each with one value.
-/

import LightList.Keyed

namespace LightList

structure Tags where
  entries : List (String × String)
  ascending : Keyed.Ascending entries
deriving DecidableEq

namespace Tags

/-- A tag set is determined by its entries. -/
theorem ext_entries {first second : Tags} (same : first.entries = second.entries) :
    first = second := by
  cases first
  cases second
  cases same
  rfl

def empty : Tags := ⟨[], .nil⟩

/-- Of two pairs with the same key, the later one counts. -/
def ofList (pairs : List (String × String)) : Tags :=
  ⟨Keyed.ofList pairs, Keyed.ascending_ofList pairs⟩

def get? (tags : Tags) (key : String) : Option String := tags.entries.lookup key

def isEmpty (tags : Tags) : Bool := tags.entries.isEmpty

/-- This keeps the tags whose keys pass the test. -/
def filterKeys (tags : Tags) (test : String → Bool) : Tags :=
  ⟨tags.entries.filter fun entry => test entry.1, tags.ascending.filter _⟩

/-- The seamark namespace and the plain name survive reduction. -/
def keeps (key : String) : Bool :=
  key == "name" || "seamark:".toList.isPrefixOf key.toList

/-- This is the reduced tag set, or none when nothing is left. -/
def kept? (tags : Tags) : Option Tags :=
  if (tags.filterKeys keeps).isEmpty then none else some (tags.filterKeys keeps)

end Tags

end LightList
