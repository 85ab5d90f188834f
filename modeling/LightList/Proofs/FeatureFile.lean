/-
This file says which tree is read from the audit that was written down.

A reader of any JSON keeps the members of an object in the order of their keys, so that order, and not
the one in the file, is the order of the members here.
-/

import LightList.Feature
import LightList.Proofs.Json.Indented

namespace LightList.Feature

open Json

/-- A feature has these members and no others; the longitude comes first. -/
def entry (feature : Feature) (lon lat : Json) : Json :=
  .object [
    ("geometry", .object [("coordinates", .array [lon, lat]), ("type", .string "Point")]),
    ("properties", .object [
      ("character", .string feature.character),
      ("group", .ofText? feature.group),
      ("id", .ofId feature.id),
      ("name", .ofText? feature.name),
      ("period", .ofText? feature.period),
      ("sequence", .ofText? feature.sequence)]),
    ("type", .string "Feature")]

/-- Only the coordinates may come back otherwise than they are. -/
def IsReadAs (feature : Feature) (read : Json) : Prop :=
  ∃ lon lat, IsReadFloat feature.position.lon lon ∧ IsReadFloat feature.position.lat lat ∧
    read = feature.entry lon lat

section Members

variable {depth : Nat} {feature : Feature} {lon lat : Json}

/-- The longitude stands before the latitude. -/
theorem isReadBack_geometry (lonRead : IsReadFloat feature.position.lon lon)
    (latRead : IsReadFloat feature.position.lat lat) :
    IsReadBack (depth + 2)
      (.object [
        ("type", .string "Point"),
        ("coordinates", .array [.ofFloat feature.position.lon, .ofFloat feature.position.lat])])
      (.object [("coordinates", .array [lon, lat]), ("type", .string "Point")]) := by
  have sorted (kind coordinates : Json) :
      Keyed.ofList [("type", kind), ("coordinates", coordinates)] =
        [("coordinates", coordinates), ("type", kind)] := by
    simp +decide only [Keyed.ofList, Keyed.place, Keyed.placeBy, List.foldl, if_true, if_false]
  have coordinates : IsReadBack (depth + 1)
      (.array [.ofFloat feature.position.lon, .ofFloat feature.position.lat])
      (.array [lon, lat]) :=
    .array (.cons (.ofFloat lonRead) (.cons (.ofFloat latRead) .nil))
  rw [← sorted]
  exact .object (.cons ⟨rfl, .string _ "Point"⟩ (.cons ⟨rfl, coordinates⟩ .nil))

/-- A property that is absent is written as null. -/
theorem isReadBack_properties (depth : Nat) (feature : Feature) :
    IsReadBack (depth + 1)
      (.object [
        ("id", .ofId feature.id),
        ("character", .string feature.character),
        ("name", .ofText? feature.name),
        ("sequence", .ofText? feature.sequence),
        ("period", .ofText? feature.period),
        ("group", .ofText? feature.group)])
      (.object [
        ("character", .string feature.character),
        ("group", .ofText? feature.group),
        ("id", .ofId feature.id),
        ("name", .ofText? feature.name),
        ("period", .ofText? feature.period),
        ("sequence", .ofText? feature.sequence)]) := by
  have sorted (id character name sequence period group : Json) :
      Keyed.ofList [("id", id), ("character", character), ("name", name), ("sequence", sequence),
          ("period", period), ("group", group)] =
        [("character", character), ("group", group), ("id", id), ("name", name),
          ("period", period), ("sequence", sequence)] := by
    simp +decide only [Keyed.ofList, Keyed.place, Keyed.placeBy, List.foldl, if_true, if_false]
  rw [← sorted]
  exact .object (.cons ⟨rfl, .ofId _ feature.id⟩ (.cons ⟨rfl, .string _ feature.character⟩
    (.cons ⟨rfl, .ofText? _ feature.name⟩ (.cons ⟨rfl, .ofText? _ feature.sequence⟩
      (.cons ⟨rfl, .ofText? _ feature.period⟩ (.cons ⟨rfl, .ofText? _ feature.group⟩ .nil))))))

/-- A feature is read back with its geometry and all of its properties. -/
theorem isReadBack_json (lonRead : IsReadFloat feature.position.lon lon)
    (latRead : IsReadFloat feature.position.lat lat) :
    IsReadBack (depth + 3) feature.json (feature.entry lon lat) := by
  have sorted (kind geometry properties : Json) :
      Keyed.ofList [("type", kind), ("geometry", geometry), ("properties", properties)] =
        [("geometry", geometry), ("properties", properties), ("type", kind)] := by
    simp +decide only [Keyed.ofList, Keyed.place, Keyed.placeBy, List.foldl, if_true, if_false]
  rw [entry, ← sorted]
  exact .object (.cons ⟨rfl, .string _ "Feature"⟩
    (.cons ⟨rfl, isReadBack_geometry lonRead latRead⟩
      (.cons ⟨rfl, isReadBack_properties _ feature⟩ .nil)))

end Members

/-- Each feature is read on its own. -/
theorem exists_entries (depth : Nat) (features : List Feature) :
    ∃ entries, List.Forall₂ IsReadAs features entries ∧
      List.Forall₂ (IsReadBack (depth + 3)) (features.map json) entries := by
  have each : ∀ feature ∈ features, ∃ read,
      feature.IsReadAs read ∧ IsReadBack (depth + 3) feature.json read := by
    intro feature _
    obtain ⟨lon, lonRead⟩ := exists_isReadFloat feature.position.lon
    obtain ⟨lat, latRead⟩ := exists_isReadFloat feature.position.lat
    exact ⟨feature.entry lon lat, ⟨lon, lat, lonRead, latRead, rfl⟩,
      isReadBack_json lonRead latRead⟩
  obtain ⟨entries, areRead⟩ := exists_forall₂ each
  refine ⟨entries, areRead.imp fun _ _ both => both.1, ?_⟩
  rw [List.forall₂_map_left_iff]
  exact areRead.imp fun _ _ both => both.2

/-- Two brackets stand around the features. -/
theorem isReadBack_collection {depth : Nat} {features : List Feature} {entries : List Json}
    (read : List.Forall₂ (IsReadBack (depth + 3)) (features.map json) entries) :
    IsReadBack (depth + 5) (collection features)
      (.object [("features", .array entries), ("type", .string "FeatureCollection")]) := by
  have sorted (kind entries : Json) :
      Keyed.ofList [("type", kind), ("features", entries)] =
        [("features", entries), ("type", kind)] := by
    simp +decide only [Keyed.ofList, Keyed.place, Keyed.placeBy, List.foldl, if_true, if_false]
  rw [← sorted]
  exact .object (.cons ⟨rfl, .string _ "FeatureCollection"⟩ (.cons ⟨rfl, .array read⟩ .nil))

/--
Whatever the features are, their document is read as a collection with one entry for each of them in
their order.
-/
theorem document_tree (features : List Feature) :
    ∃ entries,
      Reader.document (Reader.tree Reader.depthLimit) (document features).toUTF8.toList =
        .ok (.object [("features", .array entries), ("type", .string "FeatureCollection")]) ∧
      List.Forall₂ IsReadAs features entries := by
  obtain ⟨entries, areEntries, read⟩ := exists_entries (Reader.depthLimit - 5) features
  have isRead : IsReadBack Reader.depthLimit (collection features) _ := isReadBack_collection read
  exact ⟨entries, isRead.document_eq, areEntries⟩

end LightList.Feature
