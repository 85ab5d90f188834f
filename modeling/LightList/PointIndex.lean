/-
This file indexes the direct positions of the nodes of an extract.
-/

import LightList.Element
import Std.Data.HashMap

namespace LightList

structure PointIndex where
  positions : Std.HashMap ElementId Position

namespace PointIndex

def empty : PointIndex := ⟨∅⟩

def get? (index : PointIndex) (id : ElementId) : Option Position := index.positions[id]?

def size (index : PointIndex) : Nat := index.positions.size

def isEmpty (index : PointIndex) : Bool := index.positions.isEmpty

/-- Only a node with a direct position enters the index; it replaces an older one of the same id. -/
def add (index : PointIndex) (element : Element) : PointIndex :=
  match element.kind, element.point? with
  | .node, some position => ⟨index.positions.insert element.id position⟩
  | _, _ => index

def ofElements (elements : List Element) : PointIndex := elements.foldl add empty

theorem get?_empty (id : ElementId) : empty.get? id = none := by simp [get?, empty]

/-- Only a node with a position of its own replaces what is found for its id. -/
theorem get?_add (index : PointIndex) (element : Element) (id : ElementId) :
    (index.add element).get? id =
      if element.kind = .node ∧ element.id = id then element.point? <|> index.get? id
      else index.get? id := by
  unfold add
  split
  · next kind point => simp [get?, kind, point, Std.HashMap.getElem?_insert]
  · next excluded =>
      split
      · next chosen =>
          cases point : element.point? with
          | none => rfl
          | some position => exact (excluded position chosen.1 point).elim
      · rfl

end PointIndex

end LightList
