/-
This file finds the effective attributes of a light under ordered key fallbacks.

A light attribute stands on the unnumbered key or, where an element carries several lights, on the
key of the first numbered one. The unnumbered key wins, and an empty value counts as absent.
-/

import LightList.Tags

namespace LightList.Tags

/-- This is the first present and non-empty value, with the keys tried in order. -/
def firstPresent (tags : Tags) (keys : List String) : Option String :=
  keys.findSome? fun key => (tags.get? key).filter fun value => value != ""

def lightKeys (property : String) : List String :=
  ["seamark:light:" ++ property, "seamark:light:1:" ++ property]

def light? (tags : Tags) (property : String) : Option String :=
  tags.firstPresent (lightKeys property)

def nameKeys : List String := ["name", "seamark:name", "seamark:light:name"]

def name? (tags : Tags) : Option String := tags.firstPresent nameKeys

/-- An empty value counts as absent. -/
theorem firstPresent_ne_empty {tags : Tags} {keys : List String} {value : String}
    (found : tags.firstPresent keys = some value) : value ≠ "" := by
  obtain ⟨key, _, present⟩ := List.exists_of_findSome?_eq_some found
  have accepted := (Option.filter_eq_some_iff.1 present).2
  simpa using accepted

end LightList.Tags
