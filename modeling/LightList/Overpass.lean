/-
This file reads extracts in Overpass JSON: an object with a list of elements.
-/

import LightList.Element
import LightList.Json.Typed

namespace LightList.Overpass

open Json.Reader

/-- These are the fields of an element as far as they have been met; null counts as met. -/
structure Draft where
  kind : Option Kind
  id : Option ElementId
  lat : Option (Option Float)
  lon : Option (Option Float)
  nodes : Option (Option (List ElementId))
  tags : Option (Option Tags)

def Draft.empty : Draft := ⟨none, none, none, none, none, none⟩

/-- Coordinates win over references whatever the kind; only a way may lie on references. -/
def geometryOf (kind : Kind) (lat lon : Option Float) (nodes : Option (List ElementId)) :
    Geometry :=
  match lat, lon, kind, nodes with
  | some lat, some lon, _, _ => .point ⟨lon, lat⟩
  | _, _, .way, some references => .path references
  | _, _, _, _ => .absent

def elementOf (kind : Kind) (id : ElementId) (lat lon : Option Float)
    (nodes : Option (List ElementId)) (tags : Option Tags) : Element :=
  { kind := kind
    id := id
    tags := tags.getD .empty
    geometry := geometryOf kind lat lon nodes }

def kindReader : Json.Reader Kind := variant Kind.ofName? Kind.names

def nodesReader : Json.Reader (Option (List ElementId)) := orNull (listOf int64)

def Draft.field (draft : Draft) (key : String) : Json.Reader Draft :=
  match key with
  | "type" => do
      let kind ← once key draft.kind kindReader
      return { draft with kind }
  | "id" => do
      let id ← once key draft.id int64
      return { draft with id }
  | "lat" => do
      let lat ← once key draft.lat (orNull float)
      return { draft with lat }
  | "lon" => do
      let lon ← once key draft.lon (orNull float)
      return { draft with lon }
  | "nodes" => do
      let nodes ← once key draft.nodes nodesReader
      return { draft with nodes }
  | "tags" => do
      let tags ← once key draft.tags (orNull tagMap)
      return { draft with tags }
  | _ => do
      unknownField
      return draft

def Draft.finish (draft : Draft) : Json.Reader Element := do
  let kind ← required "type" draft.kind
  let id ← required "id" draft.id
  return elementOf kind id (draft.lat.getD none) (draft.lon.getD none) (draft.nodes.getD none)
    (draft.tags.getD none)

def elementName : String := "RawElement"

def elementOfObject : Json.Reader Element := do
  let draft ← members Draft.field .empty
  draft.finish

def elementOfList : Json.Reader Element := do
  let kind ← fieldAt elementName 6 0 kindReader
  let id ← fieldAt elementName 6 1 int64
  let lat ← fieldAt elementName 6 2 (orNull float)
  let lon ← fieldAt elementName 6 3 (orNull float)
  let nodes ← fieldAt elementName 6 4 nodesReader
  let tags ← fieldOr 5 (orNull tagMap) none
  return elementOf kind id lat lon nodes tags

def elementReader : Json.Reader Element := record elementName elementOfObject elementOfList

def rootField (elements : Option (List Element)) (key : String) :
    Json.Reader (Option (List Element)) :=
  match key with
  | "elements" => once key elements (listOf elementReader)
  | _ => do
      unknownField
      return elements

def rootName : String := "OverpassRoot"

def rootReader : Json.Reader (List Element) :=
  record rootName
    (do
      let elements ← members rootField none
      required "elements" elements)
    (fieldAt rootName 1 0 (listOf elementReader))

/-- This reads the elements of a document in their order. -/
def read (bytes : List UInt8) : Except Json.Error (List Element) := document rootReader bytes

end LightList.Overpass
