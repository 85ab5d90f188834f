/-
This file reads the answer of a Postpass query: a feature collection whose geometries are centroids.

Every feature with a usable point becomes a node. The others are skipped with a warning, and their
tags do not matter.
-/

import LightList.Json.TreeReader
import LightList.Reading

namespace LightList.Postpass

open Json.Reader

/-- A hit is one feature of the answer before its tags are decoded. -/
structure Hit where
  id : ElementId
  tags : Option Json
  coordinates : List Float

structure Properties where
  id : ElementId
  tags : Option Json

structure PropertiesDraft where
  id : Option ElementId
  tags : Option (Option Json)

structure HitDraft where
  properties : Option Properties
  coordinates : Option (Option (List Float))

/-- The tags lie inside four brackets of the document. -/
def tagsReader : Json.Reader (Option Json) := orNull (tree (depthLimit - 4))

def PropertiesDraft.field (draft : PropertiesDraft) (key : String) :
    Json.Reader PropertiesDraft :=
  match key with
  | "osm_id" => do
      let id ← once key draft.id int64
      return { draft with id }
  | "tags" => do
      let tags ← once key draft.tags tagsReader
      return { draft with tags }
  | _ => do
      unknownField
      return draft

def propertiesName : String := "PostpassProperties"

def propertiesReader : Json.Reader Properties :=
  record propertiesName
    (do
      let draft ← members PropertiesDraft.field ⟨none, none⟩
      let id ← required "osm_id" draft.id
      return ⟨id, draft.tags.getD none⟩)
    (do
      let id ← fieldAt propertiesName 2 0 int64
      let tags ← fieldOr 1 tagsReader none
      return ⟨id, tags⟩)

def geometryField (coordinates : Option (List Float)) (key : String) :
    Json.Reader (Option (List Float)) :=
  match key with
  | "coordinates" => once key coordinates (listOf float)
  | _ => do
      unknownField
      return coordinates

def geometryReader : Json.Reader (List Float) :=
  record "PostpassGeometry"
    (do
      let coordinates ← members geometryField none
      return coordinates.getD [])
    (fieldOr 0 (listOf float) [])

def HitDraft.field (draft : HitDraft) (key : String) : Json.Reader HitDraft :=
  match key with
  | "properties" => do
      let properties ← once key draft.properties propertiesReader
      return { draft with properties }
  | "geometry" => do
      let coordinates ← once key draft.coordinates (orNull geometryReader)
      return { draft with coordinates }
  | _ => do
      unknownField
      return draft

def hitOf (properties : Properties) (coordinates : Option (List Float)) : Hit :=
  ⟨properties.id, properties.tags, coordinates.getD []⟩

def hitName : String := "PostpassFeature"

def hitReader : Json.Reader Hit :=
  record hitName
    (do
      let draft ← members HitDraft.field ⟨none, none⟩
      let properties ← required "properties" draft.properties
      return hitOf properties (draft.coordinates.getD none))
    (do
      let properties ← fieldAt hitName 2 0 propertiesReader
      let coordinates ← fieldOr 1 (orNull geometryReader) none
      return hitOf properties coordinates)

def rootField (hits : Option (List Hit)) (key : String) : Json.Reader (Option (List Hit)) :=
  match key with
  | "features" => once key hits (listOf hitReader)
  | _ => do
      unknownField
      return hits

/-- An answer without features holds none. -/
def rootReader : Json.Reader (List Hit) :=
  record "PostpassRoot"
    (do
      let hits ← members rootField none
      return hits.getD [])
    (fieldOr 0 (listOf hitReader) [])

def hits (bytes : List UInt8) : Except Json.Error (List Hit) := document rootReader bytes

/-- Tags stand as an object, or as a string that holds the text of one; null means no tags. -/
def decodeTags : Option Json → Except Json.Error Tags
  | none => .ok .empty
  | some .null => .ok .empty
  | some (.string text) => document tagMap text.toUTF8.toList
  | some other => other.tags?

/-- Longitude comes first; further coordinates do not matter. -/
def Hit.position? (hit : Hit) : Option Position :=
  match hit.coordinates with
  | lon :: lat :: _ => some ⟨lon, lat⟩
  | _ => none

/-- The first usable feature whose tags do not decode ends the reading. -/
def place : List Hit → Array Notice → Array Element → Reading
  | [], notices, elements => ⟨notices.toList, .ok elements.toList⟩
  | hit :: rest, notices, elements =>
      match hit.position? with
      | none => place rest (notices.push (.featureSkipped hit.id)) elements
      | some position =>
          match decodeTags hit.tags with
          | .error error => ⟨notices.toList, .error (.tags hit.id error)⟩
          | .ok tags => place rest notices (elements.push (.node hit.id position tags))

def read (bytes : List UInt8) : Reading :=
  match hits bytes with
  | .error error => ⟨[], .error (.json error)⟩
  | .ok found => place found #[.featuresReturned found.length] #[]

end LightList.Postpass
