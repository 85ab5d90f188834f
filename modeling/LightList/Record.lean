/-
This file holds the records of the reduced dataset and the text that they are written as.
-/

import LightList.Element
import LightList.Json.Printer
import LightList.Sink

namespace LightList

/-- A record is an element reduced to its kept tags and placed on one point. -/
structure Record where
  id : ElementId
  position : Position
  tags : Tags

def Tags.json (tags : Tags) : Json :=
  .object (tags.entries.map fun entry => (entry.1, .string entry.2))

namespace Record

def json (record : Record) : Json :=
  .object [("type", .string "node"), ("id", .ofId record.id), ("lat", .ofFloat record.position.lat),
    ("lon", .ofFloat record.position.lon), ("tags", record.tags.json)]

/-- These are the lines after the first record; a comma ends the line before. -/
def lines : List Record → List String
  | [] => []
  | record :: rest => [",", "\n", record.json.compact] ++ lines rest

/-- The document is one JSON object with a line for each record. -/
def documentPieces : List Record → List String
  | [] => ["\x7b\"elements\":[\n", "]\x7d\n"]
  | record :: rest =>
      ["\x7b\"elements\":[\n", record.json.compact] ++ lines rest ++ ["\n", "]\x7d\n"]

def document (records : List Record) : String := String.join (documentPieces records)

def write (records : List Record) (sink : Sink) : Except Sink.Full Sink :=
  sink.writeAll (documentPieces records)

/-- Identifiers and tags must be the same and the floats must compare equal. -/
def agrees (first second : Record) : Bool :=
  first.id == second.id && first.position.agrees second.position && first.tags = second.tags

/-- A record stands in an extract as a node with a direct position. -/
def element (record : Record) : Element := .node record.id record.position record.tags

end Record

end LightList
