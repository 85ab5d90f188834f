/-
This file says which documents hold features and which features these are, and shows that exactly
they are read.

The format is stated on trees. Objects may have further members and name their members in any order;
a structure may also stand as a list of its fields.
-/

import LightList.Postpass
import LightList.Proofs.Json.PrintedNumbers
import LightList.Proofs.Json.Structures
import LightList.Proofs.Json.TreeDecoding

namespace LightList.Postpass

open Json Json.Written Json.Reader

/-- The tags may be of any type, and null stands for none. -/
def tagsValue? : Written → Option (Option Json) := orNull? (tree? (depthLimit - 4))

/-- The identifier must occur, and neither field may occur twice. -/
def propertiesOfMembers? (members : List (String × Written)) : Option Properties := do
  let id ← field? "osm_id" int64? members
  let tags ← field? "tags" tagsValue? members
  return ⟨← id, tags.join⟩

def takeProperties : Taking Properties := do
  let id ← takeItem int64?
  let tags ← takeItemOr tagsValue? none
  return ⟨id, tags⟩

def properties? : Written → Option Properties :=
  record? propertiesOfMembers? (takeAll? takeProperties)

def coordinates? : Written → Option (List Float) := listOf? float?

/-- A geometry may lack coordinates, but those it has are a list of numbers. -/
def coordinatesIn? : Written → Option (List Float) :=
  record? (fun members => (field? "coordinates" coordinates? members).map (·.getD []))
    (takeAll? (takeItemOr coordinates? []))

def hitOfMembers? (members : List (String × Written)) : Option Hit := do
  let properties ← field? "properties" properties? members
  let coordinates ← field? "geometry" (orNull? coordinatesIn?) members
  return hitOf (← properties) coordinates.join

def takeHit : Taking Hit := do
  let properties ← takeItem properties?
  let coordinates ← takeItemOr (orNull? coordinatesIn?) none
  return hitOf properties coordinates

def hit? : Written → Option Hit := record? hitOfMembers? (takeAll? takeHit)

/-- These are the features that the document holds, if it has the format. -/
def hits? : Written → Option (List Hit) :=
  record? (fun members => (field? "features" (listOf? hit?) members).map (·.getD []))
    (takeAll? (takeItemOr (listOf? hit?) []))

/-- The tags of a feature are kept as the value that they are. -/
theorem reads_tagsReader : Reads tagsReader tagsValue? := reads_orNull (reads_tree _)

/-- Tags other than null are present. -/
theorem tagsValue?_of_ne_null {tree : Written} {value : Json} (notNull : tree ≠ .null)
    (found : tree? (depthLimit - 4) tree = some value) : tagsValue? tree = some (some value) := by
  rw [tagsValue?, orNull?_of_ne_null _ notNull, found]
  rfl

def PropertiesDraft.parts : PropertiesDraft ≃ Option ElementId × Option (Option Json) where
  toFun draft := (draft.id, draft.tags)
  invFun parts := ⟨parts.1, parts.2⟩
  left_inv _ := rfl
  right_inv _ := rfl

def HitDraft.parts : HitDraft ≃ Option Properties × Option (Option (List Float)) where
  toFun draft := (draft.properties, draft.coordinates)
  invFun parts := ⟨parts.1, parts.2⟩
  left_inv _ := rfl
  right_inv _ := rfl

/-- A property of another name is passed. -/
theorem PropertiesDraft.field_of_ne (draft : PropertiesDraft) (key : String)
    (notId : key ≠ "osm_id") (notTags : key ≠ "tags") :
    draft.field key = do
      unknownField
      return draft := by
  unfold field
  split
  · exact (notId rfl).elim
  · exact (notTags rfl).elim
  · rfl

/-- A member of another name is passed. -/
theorem HitDraft.field_of_ne (draft : HitDraft) (key : String) (notProperties : key ≠ "properties")
    (notGeometry : key ≠ "geometry") :
    draft.field key = do
      unknownField
      return draft := by
  unfold field
  split
  · exact (notProperties rfl).elim
  · exact (notGeometry rfl).elim
  · rfl

/-- The reader of properties takes what the format says. -/
theorem reads_propertiesReader : Reads propertiesReader properties? := by
  apply reads_record
  · intro members inner rest writes
    have read : outcome? (Reader.members PropertiesDraft.field ⟨none, none⟩)
        (inner ++ closeBrace :: rest) = _ :=
      outcome?_members_two PropertiesDraft.parts _ rfl (by decide : "osm_id" ≠ "tags") reads_int64
        reads_tagsReader (fun _ => rfl) (fun _ => rfl) PropertiesDraft.field_of_ne writes
    rw [outcome?_bind, read, propertiesOfMembers?]
    cases field? "osm_id" int64? members with
    | none => rfl
    | some id =>
        cases field? "tags" tagsValue? members with
        | none => rfl
        | some tags => cases id <;> cases tags <;> rfl
  · intro items inner rest writes
    apply outcome?_enclosed_list _ writes
    apply ReadsItems.bind (readsItems_fieldAt propertiesName 2 0 reads_int64)
    intro id
    apply ReadsItems.bind (readsItems_fieldOr 1 reads_tagsReader none)
    intro tags
    exact ReadsItems.pure _

/-- The reader of geometries takes lists of numbers as coordinates. -/
theorem reads_geometryReader : Reads geometryReader coordinatesIn? := by
  apply reads_single _ (reads_listOf reads_float) [] (fun _ => rfl)
  intro earlier key different
  unfold geometryField
  split
  · exact (different rfl).elim
  · rfl

/-- The reader of features takes what the format says. -/
theorem reads_hitReader : Reads hitReader hit? := by
  apply reads_record
  · intro members inner rest writes
    have read : outcome? (Reader.members HitDraft.field ⟨none, none⟩)
        (inner ++ closeBrace :: rest) = _ :=
      outcome?_members_two HitDraft.parts _ rfl (by decide : "properties" ≠ "geometry")
        reads_propertiesReader (reads_orNull reads_geometryReader) (fun _ => rfl) (fun _ => rfl)
        HitDraft.field_of_ne writes
    rw [outcome?_bind, read, hitOfMembers?]
    cases field? "properties" properties? members with
    | none => rfl
    | some properties =>
        cases field? "geometry" (orNull? coordinatesIn?) members with
        | none => rfl
        | some coordinates => cases properties <;> cases coordinates <;> rfl
  · intro items inner rest writes
    apply outcome?_enclosed_list _ writes
    apply ReadsItems.bind (readsItems_fieldAt hitName 2 0 reads_propertiesReader)
    intro properties
    apply ReadsItems.bind (readsItems_fieldOr 1 (reads_orNull reads_geometryReader) none)
    intro coordinates
    exact ReadsItems.pure _

/-- The reader of answers takes what the format says. -/
theorem reads_rootReader : Reads rootReader hits? := by
  apply reads_single _ (reads_listOf reads_hitReader) [] (fun _ => rfl)
  intro earlier key different
  unfold rootField
  split
  · exact (different rfl).elim
  · rfl

/-- An answer is read as the hits of its tree, and refused where there are none. -/
theorem hits_eq_ok_iff {tree : Written} {bytes : List UInt8} (writes : tree.WritesDocument bytes)
    (found : List Hit) : hits bytes = .ok found ↔ hits? tree = some found :=
  document_eq_ok_iff reads_rootReader writes found

/-- A document without the format is refused before any feature is looked at. -/
theorem read_of_hits?_none {tree : Written} {bytes : List UInt8}
    (writes : tree.WritesDocument bytes) (none : hits? tree = none) :
    ∃ error, read bytes = ⟨[], .error (.json error)⟩ := by
  cases held : hits bytes with
  | error error =>
      apply Exists.intro error
      rw [read, held]
  | ok found =>
      rw [(hits_eq_ok_iff writes found).1 held] at none
      cases none

section Plain

/-- This is a feature as it is commonly written. -/
def plainFeature (id : ElementId) (tags geometry : Written) : Written :=
  .object [("type", .string "Feature"),
    ("properties", .object [("osm_id", .number (.ofInt id.toInt)), ("tags", tags)]),
    ("geometry", geometry)]

def plainAnswer (features : List Written) : Written :=
  .object [("type", .string "FeatureCollection"), ("features", .array features)]

def featureJson (id : ElementId) (tags geometry : Json) : Json :=
  .object [("type", .string "Feature"),
    ("properties", .object [("osm_id", .ofId id), ("tags", tags)]), ("geometry", geometry)]

def answerJson (features : List Json) : Json :=
  .object [("type", .string "FeatureCollection"), ("features", .array features)]

def plainPosition (lon lat : Int64) : Written :=
  .array [.number (.ofInt lon.toInt), .number (.ofInt lat.toInt)]

def positionJson (lon lat : Int64) : Json := .array [.ofId lon, .ofId lat]

def plainShape (name : String) (coordinates : Written) : Written :=
  .object [("type", .string name), ("coordinates", coordinates)]

def shapeJson (name : String) (coordinates : Json) : Json :=
  .object [("type", .string name), ("coordinates", coordinates)]

def plainPoint (lon lat : Int64) : Written := plainShape "Point" (plainPosition lon lat)

def pointJson (lon lat : Int64) : Json := shapeJson "Point" (positionJson lon lat)

/-- Two integers are read as two coordinates. -/
theorem exists_coordinates?_plainPosition (lon lat : Int64) :
    ∃ first second, coordinates? (plainPosition lon lat) = some [first, second] := by
  obtain ⟨first, firstRead⟩ : ∃ read, Written.float? (.number (.ofInt lon.toInt)) = some read :=
    exists_float?_ofInt lon
  obtain ⟨second, secondRead⟩ : ∃ read, Written.float? (.number (.ofInt lat.toInt)) = some read :=
    exists_float?_ofInt lat
  refine ⟨first, second, ?_⟩
  simp [plainPosition, coordinates?, listOf?, firstRead, secondRead]

theorem exists_coordinatesIn?_plainPoint (lon lat : Int64) :
    ∃ first second, orNull? coordinatesIn? (plainPoint lon lat) = some (some [first, second]) := by
  obtain ⟨first, second, read⟩ := exists_coordinates?_plainPosition lon lat
  refine ⟨first, second, ?_⟩
  simp [plainPoint, plainShape, orNull?, coordinatesIn?, record?, field?, read]

/-- A feature is read as its id, its tags and its coordinates. -/
theorem hit?_plainFeature (id : ElementId) (tags geometry : Written) :
    hit? (plainFeature id tags geometry) =
      (tagsValue? tags).bind fun tags =>
        (orNull? coordinatesIn? geometry).map fun coordinates => ⟨id, tags, coordinates.getD []⟩ := by
  have idRead : Written.int64? (.number (.ofInt id.toInt)) = some id := Numeral.int64?_ofInt id
  have properties :
      properties? (.object [("osm_id", .number (.ofInt id.toInt)), ("tags", tags)]) =
        (tagsValue? tags).map fun tags => ⟨id, tags⟩ := by
    simp only [properties?, record?, propertiesOfMembers?, field?]
    cases read : tagsValue? tags <;> simp [idRead, read]
  simp only [plainFeature, hit?, record?, hitOfMembers?, field?]
  cases read : tagsValue? tags with
  | none => simp [properties, read]
  | some tags =>
      cases placed : orNull? coordinatesIn? geometry <;> simp [properties, read, placed, hitOf]

/-- The hits of an answer are those of its features, in their order. -/
theorem hits?_plainAnswer (features : List Written) :
    hits? (plainAnswer features) = features.mapM hit? := by
  have found : field? "features" (listOf? hit?)
      [("type", .string "FeatureCollection"), ("features", .array features)] =
        (features.mapM hit?).map some := by
    simp [field?, listOf?]
  rw [plainAnswer, hits?, record?, found]
  cases features.mapM hit? with
  | none => rfl
  | some found => rfl

theorem prints_plainPosition (lon lat : Int64) :
    Prints (positionJson lon lat) (plainPosition lon lat) :=
  prints_array (.cons (prints_integer lon.toInt) (.cons (prints_integer lat.toInt) .nil))

theorem prints_plainShape (name : String) {coordinates : Json} {tree : Written}
    (prints : Prints coordinates tree) : Prints (shapeJson name coordinates) (plainShape name tree) :=
  prints_object (.cons ⟨rfl, prints_string name⟩ (.cons ⟨rfl, prints⟩ .nil))

theorem prints_plainPoint (lon lat : Int64) : Prints (pointJson lon lat) (plainPoint lon lat) :=
  prints_plainShape "Point" (prints_plainPosition lon lat)

theorem prints_plainFeature (id : ElementId) {tags geometry : Json} {tagsTree geometryTree : Written}
    (printsTags : Prints tags tagsTree) (printsGeometry : Prints geometry geometryTree) :
    Prints (featureJson id tags geometry) (plainFeature id tagsTree geometryTree) := by
  have properties : Prints (.object [("osm_id", .ofId id), ("tags", tags)])
      (.object [("osm_id", .number (.ofInt id.toInt)), ("tags", tagsTree)]) :=
    prints_object (.cons ⟨rfl, prints_integer id.toInt⟩ (.cons ⟨rfl, printsTags⟩ .nil))
  exact prints_object (.cons ⟨rfl, prints_string "Feature"⟩
    (.cons ⟨rfl, properties⟩ (.cons ⟨rfl, printsGeometry⟩ .nil)))

/-- The printed answer is a document of its tree. -/
theorem writesDocument_plainAnswer {features : List Json} {trees : List Written}
    (each : List.Forall₂ Prints features trees) :
    (plainAnswer trees).WritesDocument (Text.bytes (answerJson features).compact) := by
  have root : Prints (answerJson features) (plainAnswer trees) :=
    prints_object (.cons ⟨rfl, prints_string "FeatureCollection"⟩
      (.cons ⟨rfl, prints_array each⟩ .nil))
  exact root.writesDocument

end Plain

end LightList.Postpass
