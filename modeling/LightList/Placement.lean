/-
This file places an element on a single point.

A direct position is taken as it is. A path takes the mean of the referenced nodes that the index
knows, in the order of the references.
-/

import LightList.PointIndex

namespace LightList

namespace PointIndex

/-- References that the index does not know are skipped, and repeated ones count each time. -/
def positionsOf (index : PointIndex) (references : List ElementId) : List Position :=
  references.filterMap index.get?

end PointIndex

def Geometry.place? (geometry : Geometry) (index : PointIndex) : Option Position :=
  match geometry with
  | .point position => some position
  | .path references => Position.mean? (index.positionsOf references)
  | .absent => none

def Element.place? (element : Element) (index : PointIndex) : Option Position :=
  element.geometry.place? index

end LightList
