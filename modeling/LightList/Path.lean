/-
This file reads paths: their components, their file name and its extension.
-/

import LightList.Notice
import LightList.Text.Split

namespace LightList.Path

/-- Components stand between slashes; repeated and trailing slashes leave empty ones. -/
def components (path : String) : List (List Char) := Text.split '/' path.toList

/-- Empty components and single dots lead nowhere. -/
def isNamed (component : List Char) : Bool := component ≠ [] && component ≠ ['.']

/-- This is the last component that leads anywhere, unless it leads upward. -/
def fileName? (path : String) : Option (List Char) :=
  match ((components path).filter isNamed).getLast? with
  | none => none
  | some name => if name = ['.', '.'] then none else some name

/-- The extension follows the last dot, and something must stand before that dot. -/
def extensionOf? (name : List Char) : Option (List Char) :=
  let reversed := name.reverse
  let extension := reversed.takeWhile fun character => character != '.'
  match reversed.drop extension.length with
  | _ :: _ :: _ => some extension.reverse
  | _ => none

def extension? (path : String) : Option (List Char) := fileName? path >>= extensionOf?

/-- A PBF file is told by its extension in any case of letters; all else is Overpass JSON. -/
def encoding (path : String) : Encoding :=
  match extension? path with
  | none => .overpass
  | some extension =>
      if extension.map Char.toLower = ['p', 'b', 'f'] then .pbf else .overpass

end LightList.Path
