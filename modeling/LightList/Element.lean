/-
This file holds the elements of a map extract: nodes, ways and relations.
-/

import LightList.Position
import LightList.Tags

namespace LightList

/-- An identifier is unique per kind within one extract. -/
abbrev ElementId := Int64

inductive Kind where
  | node
  | way
  | relation
deriving DecidableEq

/-- This says where an element sits before any reference is followed. -/
inductive Geometry where
  | point (position : Position)
  | path (references : List ElementId)
  | absent
deriving DecidableEq

structure Element where
  kind : Kind
  id : ElementId
  tags : Tags
  geometry : Geometry
deriving DecidableEq

namespace Kind

def name : Kind → String
  | node => "node"
  | way => "way"
  | relation => "relation"

def ofName? : String → Option Kind
  | "node" => some node
  | "way" => some way
  | "relation" => some relation
  | _ => none

def names : List String := ["node", "way", "relation"]

/-- A kind is read back from what it is called. -/
theorem ofName?_name (kind : Kind) : ofName? kind.name = some kind := by
  cases kind <;> rfl

end Kind

namespace Element

def node (id : ElementId) (position : Position) (tags : Tags) : Element :=
  ⟨.node, id, tags, .point position⟩

def way (id : ElementId) (references : List ElementId) (tags : Tags) : Element :=
  ⟨.way, id, tags, .path references⟩

/-- This is the direct position, if the element carries one. -/
def point? (element : Element) : Option Position :=
  match element.geometry with
  | .point position => some position
  | _ => none

end Element

end LightList
