/-
This file reduces an extract: it keeps the wanted tags, places every element on one point, drops
what cannot be kept or placed, and sorts the records by identifier.
-/

import LightList.Notice
import LightList.Placement
import LightList.Record

namespace LightList

/-- This says what becomes of one element of the extract. -/
inductive Fate where
  | untagged
  | unplaced (id : ElementId)
  | recorded (record : Record) (fromPath : Bool)

namespace Fate

def record? : Fate → Option Record
  | recorded record _ => some record
  | _ => none

def notice? : Fate → Option Notice
  | unplaced id => some (.elementUnplaced id)
  | _ => none

def isUntagged : Fate → Bool
  | untagged => true
  | _ => false

def isUnplaced : Fate → Bool
  | unplaced _ => true
  | _ => false

def isFromPath : Fate → Bool
  | recorded _ fromPath => fromPath
  | _ => false

end Fate

def Geometry.isPath : Geometry → Bool
  | .path _ => true
  | _ => false

/-- An element without kept tags is dropped before anyone asks for its position. -/
def Element.fate (element : Element) (index : PointIndex) : Fate :=
  match element.tags.kept? with
  | none => .untagged
  | some tags =>
      match element.place? index with
      | none => .unplaced element.id
      | some position => .recorded ⟨element.id, position, tags⟩ element.geometry.isPath

structure Reduction where
  records : List Record
  sourceElements : Nat
  droppedUntagged : Nat
  droppedUnplaced : Nat
  pathsCentred : Nat
  notices : List Notice

namespace Reduction

/-- The sort is stable, so records of equal identifier keep the order of the extract. -/
def ofElements (elements : List Element) (index : PointIndex) : Reduction :=
  let fates := elements.map fun element => element.fate index
  { records := (fates.filterMap Fate.record?).mergeSort fun first second =>
      decide (first.id ≤ second.id)
    sourceElements := elements.length
    droppedUntagged := fates.countP Fate.isUntagged
    droppedUnplaced := fates.countP Fate.isUnplaced
    pathsCentred := fates.countP Fate.isFromPath
    notices := fates.filterMap Fate.notice? }

/-- These are the records alone. -/
def recordsOf (elements : List Element) (index : PointIndex) : List Record :=
  (ofElements elements index).records

end Reduction

end LightList
