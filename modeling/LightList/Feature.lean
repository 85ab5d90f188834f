/-
This file holds the features of the audit and the GeoJSON text that they are written as.
-/

import LightList.Element
import LightList.Json.Printer
import LightList.Sink

namespace LightList

/-- A feature is a placed element whose light character is not in the vocabulary. -/
structure Feature where
  id : ElementId
  position : Position
  character : String
  name : Option String
  sequence : Option String
  period : Option String
  group : Option String

namespace Feature

def json (feature : Feature) : Json :=
  .object [
    ("type", .string "Feature"),
    ("geometry", .object [
      ("type", .string "Point"),
      ("coordinates", .array [.ofFloat feature.position.lon, .ofFloat feature.position.lat])]),
    ("properties", .object [
      ("id", .ofId feature.id),
      ("character", .string feature.character),
      ("name", .ofText? feature.name),
      ("sequence", .ofText? feature.sequence),
      ("period", .ofText? feature.period),
      ("group", .ofText? feature.group)])]

def collection (features : List Feature) : Json :=
  .object [("type", .string "FeatureCollection"), ("features", .array (features.map json))]

/-- The document is indented and carries no final line break. -/
def document (features : List Feature) : String := (collection features).pretty

def write (features : List Feature) (sink : Sink) : Except Sink.Full Sink :=
  sink.writeAll ((collection features).prettyPieces 0)

end Feature

end LightList
