/-
This file turns the blocks of a PBF extract into map elements.

In each group the plain nodes come first, then the dense nodes, then the ways. Relations yield
nothing.
-/

import LightList.Element
import LightList.Pbf.Message

namespace LightList.Pbf

namespace Block

/-- This is a string of the table, if it is there and is UTF-8. -/
def text? (block : Block) (index : Nat) : Option String := do
  let content ← block.strings[index]?
  String.fromUTF8? ⟨content.toArray⟩

/-- The first pair whose key or value cannot be read ends the tags. -/
def pairsOf (block : Block) : List (Option Nat × Option Nat) → List (String × String)
  | [] => []
  | pair :: rest =>
      match pair.1.bind block.text?, pair.2.bind block.text? with
      | some key, some value => (key, value) :: block.pairsOf rest
      | _, _ => []

def tagsOf (block : Block) (keys values : Array UInt32) : Tags :=
  let place := fun (index : UInt32) => some index.toNat
  .ofList (block.pairsOf ((keys.toList.map place).zip (values.toList.map place)))

/-- An offset and a multiple of the granularity give a coordinate in nanodegrees. -/
def degrees (offset : Int64) (granularity : Int32) (value : Int64) : Float :=
  1e-9 * Float.ofInt (offset + granularity.toInt64 * value).toInt

def position (block : Block) (lat lon : Int64) : Position :=
  ⟨degrees block.lonOffset block.granularity lon, degrees block.latOffset block.granularity lat⟩

def plainNode (block : Block) (node : PlainNode) : Element :=
  .node node.id (block.position node.lat node.lon) (block.tagsOf node.keys node.values)

end Block

/-- Differences are summed up from zero. -/
def running : Int64 → List Int64 → List Int64
  | _, [] => []
  | sum, difference :: rest => (sum + difference) :: running (sum + difference) rest

/-- The keys and values of one dense node end with a zero; this gives them and what follows. -/
def splitKeysValues : List Int32 → List (Int32 × Int32) × List Int32
  | [] => ([], [])
  | [_] => ([], [])
  | key :: value :: rest =>
      if key = 0 then ([], value :: rest)
      else
        let more := splitKeysValues rest
        ((key, value) :: more.1, more.2)

/-- A negative number is no place in the table. -/
def tablePlace? (index : Int32) : Option Nat :=
  if index < 0 then none else some index.toInt.toNat

namespace Block

def denseTags (block : Block) (pairs : List (Int32 × Int32)) : Tags :=
  .ofList (block.pairsOf (pairs.map fun pair => (tablePlace? pair.1, tablePlace? pair.2)))

/-- The shortest of the three lists decides how many nodes there are. -/
def denseNodesFrom (block : Block) :
    List Int64 → List Int64 → List Int64 → List Int32 → List Element
  | id :: ids, lat :: lats, lon :: lons, keysValues =>
      let split := splitKeysValues keysValues
      .node id (block.position lat lon) (block.denseTags split.1) ::
        block.denseNodesFrom ids lats lons split.2
  | _, _, _, _ => []

def denseNodes (block : Block) (dense : DenseNodes) : List Element :=
  block.denseNodesFrom (running 0 dense.ids.toList) (running 0 dense.lats.toList)
    (running 0 dense.lons.toList) dense.keysValues.toList

def way (block : Block) (entry : WayEntry) : Element :=
  .way entry.id (running 0 entry.references.toList) (block.tagsOf entry.keys entry.values)

def groupElements (block : Block) (group : Group) : List Element :=
  group.nodes.toList.map block.plainNode ++ block.denseNodes group.dense ++
    group.ways.toList.map block.way

def elements (block : Block) : List Element :=
  block.groups.toList.flatMap block.groupElements

end Block

end LightList.Pbf
