/-
This file holds the messages of a PBF extract and how they are read from the wire.

Strings stand in one table per block, and the messages refer to them by their place in it. The
identifiers and coordinates of dense nodes, and the references of ways, are kept as differences.
-/

import LightList.Pbf.Wire

namespace LightList.Pbf

structure BlobHeader where
  kind : String
  contentSize : Int32

/-- The content of a blob stands raw, compressed by zlib, or in a form that is not read. -/
inductive BlobData where
  | raw (bytes : List UInt8)
  | zlib (bytes : List UInt8)
  | other

structure PlainNode where
  id : Int64
  lat : Int64
  lon : Int64
  keys : Array UInt32
  values : Array UInt32

structure DenseNodes where
  ids : Array Int64
  lats : Array Int64
  lons : Array Int64
  keysValues : Array Int32

structure WayEntry where
  id : Int64
  keys : Array UInt32
  values : Array UInt32
  references : Array Int64

structure Group where
  nodes : Array PlainNode
  dense : DenseNodes
  ways : Array WayEntry

structure Block where
  strings : Array (List UInt8)
  groups : Array Group
  granularity : Int32
  latOffset : Int64
  lonOffset : Int64

namespace Wire

structure HeaderDraft where
  kind : Option String
  contentSize : Option Int32

def blobHeaderField (draft : HeaderDraft) (next : Tag) : Reader HeaderDraft := do
  match next.number, next.wireType with
  | 1, 2 =>
      let kind ← text
      return { draft with kind := some kind }
  | 2, 2 =>
      let _ ← bytes
      return draft
  | 3, 0 =>
      let size ← int32
      return { draft with contentSize := some size }
  | _, wireType =>
      skip wireType
      return draft

def blobHeader : Reader BlobHeader := do
  let draft ← fields blobHeaderField ⟨none, none⟩
  let kind ← required "BlobHeader" draft.kind
  let contentSize ← required "BlobHeader" draft.contentSize
  return ⟨kind, contentSize⟩

/-- The form that was given last counts. -/
def blobField (earlier : Option BlobData) (next : Tag) : Reader (Option BlobData) := do
  match next.number, next.wireType with
  | 1, 2 =>
      let content ← bytes
      return some (.raw content)
  | 2, 0 =>
      let _ ← int32
      return earlier
  | 3, 2 =>
      let content ← bytes
      return some (.zlib content)
  | 4, 2 | 5, 2 | 6, 2 | 7, 2 =>
      let _ ← bytes
      return some .other
  | _, wireType =>
      skip wireType
      return earlier

def blob : Reader (Option BlobData) := fields blobField none

/-- These are the fields of the bounding box that are there. -/
def boxField (seen : Array Nat) (next : Tag) : Reader (Array Nat) := do
  skip next.wireType
  if next.wireType = 0 then return seen.push next.number else return seen

def boundingBox : Reader (Array Nat) := message (fields boxField #[])

/-- The four sides of the box must all be there. -/
def isBoxComplete (seen : Array Nat) : Bool := [1, 2, 3, 4].all seen.contains

def headerField (box : Option (Array Nat)) (next : Tag) : Reader (Option (Array Nat)) := do
  match next.number, next.wireType with
  | 1, 2 => some <$> boundingBox
  | 4, 2 | 5, 2 | 16, 2 | 17, 2 | 34, 2 =>
      let _ ← text
      return box
  | _, wireType =>
      skip wireType
      return box

/-- Nothing of a header block is kept, but it must be well formed; of two boxes the later counts. -/
def headerBlock : Reader Unit := do
  let box ← fields headerField none
  if box.all isBoxComplete then return () else fail (.missingFields "HeaderBlock")

def historyField (_ : Unit) (next : Tag) : Reader Unit := do
  match next.number, next.wireType with
  | 1, 0 | 4, 0 =>
      let _ ← int32
      return ()
  | 5, 0 =>
      let _ ← uint32
      return ()
  | _, wireType => skip wireType

/-- The history of an element is checked and dropped. -/
def history : Reader Unit := message (fields historyField ())

structure NodeDraft where
  id : Option Int64
  lat : Option Int64
  lon : Option Int64
  keys : Array UInt32
  values : Array UInt32

def nodeField (draft : NodeDraft) (next : Tag) : Reader NodeDraft := do
  match next.number, next.wireType with
  | 1, 0 =>
      let id ← sint64
      return { draft with id := some id }
  | 8, 0 =>
      let lat ← sint64
      return { draft with lat := some lat }
  | 9, 0 =>
      let lon ← sint64
      return { draft with lon := some lon }
  | 4, 2 =>
      history
      return draft
  | number, wireType =>
      if number = 2 ∧ isRepeatedVarint wireType then
        let keys ← repeated wireType uint32 draft.keys
        return { draft with keys }
      else if number = 3 ∧ isRepeatedVarint wireType then
        let values ← repeated wireType uint32 draft.values
        return { draft with values }
      else
        skip wireType
        return draft

def plainNode : Reader PlainNode := do
  let draft ← message (fields nodeField ⟨none, none, none, #[], #[]⟩)
  let id ← required "Node" draft.id
  let lat ← required "Node" draft.lat
  let lon ← required "Node" draft.lon
  return ⟨id, lat, lon, draft.keys, draft.values⟩

def denseHistoryField (_ : Unit) (next : Tag) : Reader Unit := do
  if isRepeatedVarint next.wireType then
    match next.number with
    | 1 =>
        let _ ← repeated next.wireType int32 #[]
        return ()
    | 2 | 3 | 6 =>
        let _ ← repeated next.wireType uint64 #[]
        return ()
    | 4 | 5 =>
        let _ ← repeated next.wireType uint32 #[]
        return ()
    | _ => skip next.wireType
  else skip next.wireType

/-- The history of dense nodes has the same fields, each of them repeated. -/
def denseHistory : Reader Unit := message (fields denseHistoryField ())

def emptyDense : DenseNodes := ⟨#[], #[], #[], #[]⟩

def denseField (dense : DenseNodes) (next : Tag) : Reader DenseNodes := do
  if next.number = 5 ∧ next.wireType = 2 then
    denseHistory
    return dense
  else if isRepeatedVarint next.wireType then
    match next.number with
    | 1 =>
        let ids ← repeated next.wireType sint64 dense.ids
        return { dense with ids }
    | 8 =>
        let lats ← repeated next.wireType sint64 dense.lats
        return { dense with lats }
    | 9 =>
        let lons ← repeated next.wireType sint64 dense.lons
        return { dense with lons }
    | 10 =>
        let keysValues ← repeated next.wireType int32 dense.keysValues
        return { dense with keysValues }
    | _ =>
        skip next.wireType
        return dense
  else
    skip next.wireType
    return dense

def denseNodes : Reader DenseNodes := message (fields denseField emptyDense)

structure WayDraft where
  id : Option Int64
  keys : Array UInt32
  values : Array UInt32
  references : Array Int64

def wayField (draft : WayDraft) (next : Tag) : Reader WayDraft := do
  match next.number, next.wireType with
  | 1, 0 =>
      let id ← int64
      return { draft with id := some id }
  | 4, 2 =>
      history
      return draft
  | number, wireType =>
      if number = 2 ∧ isRepeatedVarint wireType then
        let keys ← repeated wireType uint32 draft.keys
        return { draft with keys }
      else if number = 3 ∧ isRepeatedVarint wireType then
        let values ← repeated wireType uint32 draft.values
        return { draft with values }
      else if number = 8 ∧ isRepeatedVarint wireType then
        let references ← repeated wireType sint64 draft.references
        return { draft with references }
      else if (number = 9 ∨ number = 10) ∧ isRepeatedVarint wireType then
        let _ ← repeated wireType sint64 #[]
        return draft
      else
        skip wireType
        return draft

def wayEntry : Reader WayEntry := do
  let draft ← message (fields wayField ⟨none, #[], #[], #[]⟩)
  let id ← required "Way" draft.id
  return ⟨id, draft.keys, draft.values, draft.references⟩

def relationField (hasId : Bool) (next : Tag) : Reader Bool := do
  match next.number, next.wireType with
  | 1, 0 =>
      let _ ← uint64
      return true
  | 4, 2 =>
      history
      return hasId
  | number, wireType =>
      if (number = 2 ∨ number = 3) ∧ isRepeatedVarint wireType then
        let _ ← repeated wireType uint32 #[]
        return hasId
      else if (number = 8 ∨ number = 10) ∧ isRepeatedVarint wireType then
        let _ ← repeated wireType int32 #[]
        return hasId
      else if number = 9 ∧ isRepeatedVarint wireType then
        let _ ← repeated wireType sint64 #[]
        return hasId
      else
        skip wireType
        return hasId

/-- Nothing of a relation is kept, but it must have an identifier. -/
def relationEntry : Reader Unit := do
  let hasId ← message (fields relationField false)
  if hasId then return () else fail (.missingFields "Relation")

def changeSetField (hasId : Bool) (next : Tag) : Reader Bool := do
  skip next.wireType
  return hasId || (next.number = 1 && next.wireType = 0)

def changeSet : Reader Unit := do
  let hasId ← message (fields changeSetField false)
  if hasId then return () else fail (.missingFields "ChangeSet")

def emptyGroup : Group := ⟨#[], emptyDense, #[]⟩

/-- Of two lists of dense nodes in a group, the later counts. -/
def groupField (group : Group) (next : Tag) : Reader Group := do
  match next.number, next.wireType with
  | 1, 2 =>
      let node ← plainNode
      return { group with nodes := group.nodes.push node }
  | 2, 2 =>
      let dense ← denseNodes
      return { group with dense }
  | 3, 2 =>
      let way ← wayEntry
      return { group with ways := group.ways.push way }
  | 4, 2 =>
      relationEntry
      return group
  | 5, 2 =>
      changeSet
      return group
  | _, wireType =>
      skip wireType
      return group

def group : Reader Group := message (fields groupField emptyGroup)

def tableField (strings : Array (List UInt8)) (next : Tag) : Reader (Array (List UInt8)) := do
  match next.number, next.wireType with
  | 1, 2 =>
      let content ← bytes
      return strings.push content
  | _, wireType =>
      skip wireType
      return strings

def stringTable : Reader (Array (List UInt8)) := message (fields tableField #[])

structure BlockDraft where
  strings : Option (Array (List UInt8))
  groups : Array Group
  granularity : Int32
  latOffset : Int64
  lonOffset : Int64

/-- Coordinates are counted in hundreds of nanodegrees unless the block says otherwise. -/
def emptyBlock : BlockDraft := ⟨none, #[], 100, 0, 0⟩

/-- Of two string tables, the later counts. -/
def blockField (draft : BlockDraft) (next : Tag) : Reader BlockDraft := do
  match next.number, next.wireType with
  | 1, 2 =>
      let strings ← stringTable
      return { draft with strings := some strings }
  | 2, 2 =>
      let group ← group
      return { draft with groups := draft.groups.push group }
  | 17, 0 =>
      let granularity ← int32
      return { draft with granularity }
  | 18, 0 =>
      let _ ← int32
      return draft
  | 19, 0 =>
      let latOffset ← int64
      return { draft with latOffset }
  | 20, 0 =>
      let lonOffset ← int64
      return { draft with lonOffset }
  | _, wireType =>
      skip wireType
      return draft

def block : Reader Block := do
  let draft ← fields blockField emptyBlock
  let strings ← required "PrimitiveBlock" draft.strings
  return ⟨strings, draft.groups, draft.granularity, draft.latOffset, draft.lonOffset⟩

end Wire

end LightList.Pbf
