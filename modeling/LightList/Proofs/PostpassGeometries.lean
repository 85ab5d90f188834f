/-
This file says what becomes of a collection of features with geometries of all types.

The coordinates of a point are numbers. Those of the other types are lists of such coordinates, and
one feature that has any of these makes the whole document unreadable.
-/

import LightList.Proofs.PostpassFormat
import LightList.Proofs.PostpassHits
import LightList.Proofs.SpelledTags

namespace LightList.Postpass

open Json Json.Written Json.Reader

section Members

/-- The member occurs once. -/
def HasOnly (name : String) (value : Written) (members : List (String × Written)) : Prop :=
  members.filter (fun entry => entry.1 = name) = [(name, value)]

def Lacks (name : String) (members : List (String × Written)) : Prop :=
  members.filter (fun entry => entry.1 = name) = []

variable {Value : Type} {name : String} {tree : Written} {members : List (String × Written)}

/-- A member that is there once is the field. -/
theorem field?_of_hasOnly (only : HasOnly name tree members) (value? : Written → Option Value) :
    field? name value? members = (value? tree).map some := by
  rw [field?, only]

/-- A member that is not there leaves the field empty. -/
theorem field?_of_lacks (lacks : Lacks name members) (value? : Written → Option Value) :
    field? name value? members = some none := by
  rw [field?, lacks]

end Members

/-- The innermost coordinates are numbers in range, all others are lists of coordinates. -/
def IsCoordinates : Nat → Written → Prop
  | 0, tree => ∃ numbers, tree = .array numbers ∧
      ∀ number ∈ numbers, ∃ value, number.float? = some value
  | depth + 1, tree => ∃ items, tree = .array items ∧ ∀ item ∈ items, IsCoordinates depth item

/-- So deep are the coordinates of these types. -/
def coordinateDepths : List (String × Nat) :=
  [("Point", 0), ("MultiPoint", 1), ("LineString", 1), ("MultiLineString", 2), ("Polygon", 2),
    ("MultiPolygon", 3)]

inductive IsGeometry : Written → Prop where
  | shape {members : List (String × Written)} {name : String} {depth : Nat}
      {coordinates : Written} :
      (name, depth) ∈ coordinateDepths → HasOnly "type" (.string name) members →
        HasOnly "coordinates" coordinates members → IsCoordinates depth coordinates →
          IsGeometry (.object members)
  | collection {members : List (String × Written)} {items : List Written} :
      HasOnly "type" (.string "GeometryCollection") members → Lacks "coordinates" members →
        HasOnly "geometries" (.array items) members → (∀ item ∈ items, IsGeometry item) →
          IsGeometry (.object members)

structure GeoFeature where
  id : ElementId
  tags : Tags
  geometry : Option Written

/-- Tags are absent, null, or an object of strings. -/
inductive HasTags (properties : List (String × Written)) : Tags → Prop where
  | absent : Lacks "tags" properties → HasTags properties .empty
  | null : HasOnly "tags" .null properties → HasTags properties .empty
  | object {pairs : List (String × String)} :
      HasOnly "tags" (.object (stringMembers pairs)) properties → HasTags properties (.ofList pairs)

inductive HasGeometry (members : List (String × Written)) : Option Written → Prop where
  | absent : Lacks "geometry" members → HasGeometry members none
  | null : HasOnly "geometry" .null members → HasGeometry members none
  | object {geometry : Written} :
      HasOnly "geometry" geometry members → IsGeometry geometry →
        HasGeometry members (some geometry)

/-- The feature is written as an object of objects. -/
inductive WritesFeature (feature : GeoFeature) : Written → Prop where
  | object {members properties : List (String × Written)} {id : Written} :
      HasOnly "properties" (.object properties) members → HasOnly "osm_id" id properties →
        id.int64? = some feature.id → HasTags properties feature.tags →
          HasGeometry members feature.geometry → WritesFeature feature (.object members)

inductive WritesCollection (features : List GeoFeature) : Written → Prop where
  | object {members : List (String × Written)} {trees : List Written} :
      HasOnly "features" (.array trees) members → List.Forall₂ WritesFeature features trees →
        WritesCollection features (.object members)

namespace GeoFeature

def coordinatesOf : Written → Option Written
  | .object members => (field? "coordinates" some members).join
  | _ => none

/-- The first coordinates are lists themselves. -/
def IsNested (feature : GeoFeature) : Prop :=
  ∃ inner rest, feature.geometry.bind coordinatesOf = some (.array (.array inner :: rest))

/-- The point has the first two of at least two numbers. -/
def point? (feature : GeoFeature) : Option Position :=
  match ((feature.geometry.bind coordinatesOf).bind coordinates?).getD [] with
  | lon :: lat :: _ => some ⟨lon, lat⟩
  | _ => none

def node? (feature : GeoFeature) : Option Element :=
  feature.point?.map fun position => .node feature.id position feature.tags

end GeoFeature

section Coordinates

variable {geometry tree : Written}

/-- A list is no number. -/
theorem coordinates?_nested (inner rest : List Written) :
    coordinates? (.array (.array inner :: rest)) = none := by
  rw [coordinates?, listOf?, List.mapM_cons]
  rfl

/-- A list is decoded when each of its items is. -/
theorem exists_mapM {Item Value : Type} {value? : Item → Option Value} {items : List Item}
    (each : ∀ item ∈ items, ∃ value, value? item = some value) :
    ∃ values, items.mapM value? = some values := by
  induction items with
  | nil => exact ⟨[], rfl⟩
  | cons item rest inductionHypothesis =>
      obtain ⟨first, others⟩ := List.forall_mem_cons.1 each
      obtain ⟨value, read⟩ := first
      obtain ⟨values, further⟩ := inductionHypothesis others
      rw [List.mapM_cons, read, further]
      exact ⟨_, rfl⟩

/-- Coordinates of any depth are a list. -/
theorem IsCoordinates.exists_array {depth : Nat} (coordinates : IsCoordinates depth tree) :
    ∃ items, tree = .array items := by
  cases depth with
  | zero =>
      obtain ⟨numbers, rfl, _⟩ := coordinates
      exact ⟨numbers, rfl⟩
  | succ depth =>
      obtain ⟨items, rfl, _⟩ := coordinates
      exact ⟨items, rfl⟩

/-- Coordinates are read if they do not begin with a list. -/
theorem IsCoordinates.exists_numbers {depth : Nat} (coordinates : IsCoordinates depth tree)
    (flat : ∀ inner rest, tree ≠ .array (.array inner :: rest)) :
    ∃ numbers, coordinates? tree = some numbers := by
  cases depth with
  | zero =>
      obtain ⟨numbers, rfl, areNumbers⟩ := coordinates
      exact exists_mapM areNumbers
  | succ depth =>
      obtain ⟨items, rfl, inner⟩ := coordinates
      cases items with
      | nil => exact ⟨[], rfl⟩
      | cons item rest =>
          obtain ⟨items, rfl⟩ := (inner item List.mem_cons_self).exists_array
          exact (flat items rest rfl).elim

/-- A geometry is not null. -/
theorem IsGeometry.ne_null (isGeometry : IsGeometry geometry) : geometry ≠ .null := by
  cases isGeometry <;> exact nofun

/-- Coordinates that are lists of lists are refused. -/
theorem coordinatesIn?_nested {inner rest : List Written} (isGeometry : IsGeometry geometry)
    (nested : GeoFeature.coordinatesOf geometry = some (.array (.array inner :: rest))) :
    coordinatesIn? geometry = none := by
  cases isGeometry with
  | shape _ _ only _ =>
      rw [GeoFeature.coordinatesOf, field?_of_hasOnly only] at nested
      cases nested
      rw [coordinatesIn?, record?, field?_of_hasOnly only, coordinates?_nested]
      rfl
  | collection _ lacks _ _ =>
      rw [GeoFeature.coordinatesOf, field?_of_lacks lacks] at nested
      cases nested

/-- Coordinates that are a list of numbers are read, and those of a group are empty. -/
theorem coordinatesIn?_flat (isGeometry : IsGeometry geometry)
    (flat : ∀ inner rest,
      GeoFeature.coordinatesOf geometry ≠ some (.array (.array inner :: rest))) :
    coordinatesIn? geometry =
      some (((GeoFeature.coordinatesOf geometry).bind coordinates?).getD []) := by
  cases isGeometry with
  | @shape members _ _ coordinates _ _ only isCoordinates =>
      have held : GeoFeature.coordinatesOf (.object members) = some coordinates := by
        rw [GeoFeature.coordinatesOf, field?_of_hasOnly only]
        rfl
      rw [held] at flat ⊢
      obtain ⟨numbers, read⟩ :=
        isCoordinates.exists_numbers fun inner rest same => flat inner rest (congrArg some same)
      rw [coordinatesIn?, record?, field?_of_hasOnly only, read, Option.bind_some, read]
      rfl
  | collection _ lacks _ _ =>
      rw [GeoFeature.coordinatesOf, coordinatesIn?, record?, field?_of_lacks lacks,
        field?_of_lacks lacks]
      rfl

end Coordinates

section Hits

variable {feature : GeoFeature} {tree : Written}

/-- The feature is found with all that it has. -/
structure Hit.IsOf (hit : Hit) (feature : GeoFeature) : Prop where
  id : hit.id = feature.id
  tags : decodeTags hit.tags = .ok feature.tags
  position : hit.position? = feature.point?

/-- An object of texts is read as one, and a later key wins. -/
theorem tree?_stringMembers (depth : Nat) (pairs : List (String × String)) :
    tree? (depth + 1) (.object (stringMembers pairs)) =
      some (.object (ofTexts (Keyed.ofList pairs))) := by
  have read : (stringMembers pairs).mapM (member? (tree? depth)) = some (ofTexts pairs) := by
    induction pairs with
    | nil => rfl
    | cons pair rest inductionHypothesis =>
        unfold stringMembers ofTexts at inductionHypothesis ⊢
        rw [List.map_cons, List.mapM_cons, inductionHypothesis, member?, tree?]
        rfl
  rw [tree?, read, ← ofList_ofTexts]
  rfl

/-- A feature that has tags is read with them. -/
theorem exists_tags {properties : List (String × Written)} {tags : Tags}
    (has : HasTags properties tags) :
    ∃ value, field? "tags" tagsValue? properties = some value ∧
      decodeTags value.join = .ok tags := by
  cases has with
  | absent lacks => exact ⟨none, field?_of_lacks lacks _, rfl⟩
  | null only => exact ⟨some none, field?_of_hasOnly only _, rfl⟩
  | @object pairs only =>
      refine ⟨some (some (.object (ofTexts (Keyed.ofList pairs)))), ?_, ?_⟩
      · have notNull : Written.object (stringMembers pairs) ≠ .null := nofun
        rw [field?_of_hasOnly only,
          tagsValue?_of_ne_null notNull (tree?_stringMembers (depthLimit - 5) pairs)]
        rfl
      · have entries := Tags.ofList_entries (.ofList pairs)
        change (Json.object (ofTexts (Keyed.ofList pairs))).tags? = _
        rw [Json.tags?, textMembers_ofTexts]
        exact congrArg Except.ok entries

/-- A feature whose coordinates are nested is refused. -/
theorem hit?_of_nested (writes : WritesFeature feature tree) (nested : feature.IsNested) :
    hit? tree = none := by
  obtain ⟨inner, rest, held⟩ := nested
  obtain ⟨id, tags, geometry⟩ := feature
  cases writes with
  | @object members _ _ _ _ _ _ hasGeometry =>
      have refused : field? "geometry" (orNull? coordinatesIn?) members = none := by
        cases hasGeometry with
        | absent lacks => cases held
        | null only => cases held
        | @object geometry only isGeometry =>
            rw [field?_of_hasOnly only, orNull?_of_ne_null _ isGeometry.ne_null,
              coordinatesIn?_nested isGeometry held]
            rfl
      rw [hit?, record?, hitOfMembers?, refused]
      cases field? "properties" properties? members <;> rfl

/-- A feature whose coordinates are not nested is read as a hit. -/
theorem exists_hit?_of_flat (writes : WritesFeature feature tree) (flat : ¬ feature.IsNested) :
    ∃ hit, hit? tree = some hit ∧ hit.IsOf feature := by
  obtain ⟨id, tags, geometry⟩ := feature
  cases writes with
  | @object members properties _ onlyProperties onlyId isId hasTags hasGeometry =>
      obtain ⟨value, tagsField, decoded⟩ := exists_tags hasTags
      have propertiesRead : properties? (.object properties) = some ⟨id, value.join⟩ := by
        rw [properties?, record?, propertiesOfMembers?, field?_of_hasOnly onlyId, isId, tagsField]
        rfl
      have geometryRead : ∃ coordinates,
          field? "geometry" (orNull? coordinatesIn?) members = some coordinates ∧
            coordinates.join.getD [] =
              ((geometry.bind GeoFeature.coordinatesOf).bind coordinates?).getD [] := by
        cases hasGeometry with
        | absent lacks => exact ⟨none, field?_of_lacks lacks _, rfl⟩
        | null only => exact ⟨some none, field?_of_hasOnly only _, rfl⟩
        | @object geometry only isGeometry =>
            have read :=
              coordinatesIn?_flat isGeometry fun inner rest held => flat ⟨inner, rest, held⟩
            refine ⟨some (some (((GeoFeature.coordinatesOf geometry).bind coordinates?).getD [])), ?_,
              rfl⟩
            rw [field?_of_hasOnly only, orNull?_of_ne_null _ isGeometry.ne_null, read]
            rfl
      obtain ⟨coordinates, geometryField, same⟩ := geometryRead
      refine ⟨hitOf ⟨id, value.join⟩ coordinates.join, ?_, rfl, decoded, ?_⟩
      · rw [hit?, record?, hitOfMembers?, field?_of_hasOnly onlyProperties, propertiesRead,
          geometryField]
        rfl
      · rw [Hit.position?, hitOf, same]
        rfl

/-- Features are found one by one, and each of them as it is. -/
theorem exists_hits_of_flat {features : List GeoFeature} {trees : List Written}
    (written : List.Forall₂ WritesFeature features trees)
    (flat : ∀ feature ∈ features, ¬ feature.IsNested) :
    ∃ hits, trees.mapM hit? = some hits ∧ List.Forall₂ Hit.IsOf hits features := by
  induction written with
  | nil => exact ⟨[], rfl, .nil⟩
  | cons first _ inductionHypothesis =>
      obtain ⟨firstFlat, othersFlat⟩ := List.forall_mem_cons.1 flat
      obtain ⟨hit, read, isOf⟩ := exists_hit?_of_flat first firstFlat
      obtain ⟨hits, others, areOf⟩ := inductionHypothesis othersFlat
      rw [List.mapM_cons, read, others]
      exact ⟨hit :: hits, rfl, .cons isOf areOf⟩

/-- One feature with nested coordinates makes the whole list fail. -/
theorem mapM_hit?_of_nested {features : List GeoFeature} {trees : List Written}
    (written : List.Forall₂ WritesFeature features trees)
    (nested : ∃ feature ∈ features, feature.IsNested) : trees.mapM hit? = none := by
  obtain ⟨feature, member, isNested⟩ := nested
  induction written with
  | nil => cases member
  | @cons _ tree _ rest first _ inductionHypothesis =>
      rw [List.mapM_cons]
      rcases List.mem_cons.1 member with rfl | inside
      · rw [hit?_of_nested first isNested]
        rfl
      · rw [inductionHypothesis inside]
        cases hit? tree <;> rfl

/-- The hits of a collection are those of its features, in their order. -/
theorem hits?_of_writesCollection {features : List GeoFeature} {root : Written}
    (collection : WritesCollection features root) :
    ∃ trees, List.Forall₂ WritesFeature features trees ∧ hits? root = trees.mapM hit? := by
  cases collection with
  | @object members trees only written =>
      refine ⟨trees, written, ?_⟩
      rw [hits?, record?, field?_of_hasOnly only, listOf?]
      cases trees.mapM hit? <;> rfl

/-- One feature with nested coordinates makes the document unreadable. -/
theorem hits?_of_nested {features : List GeoFeature} {root : Written}
    (collection : WritesCollection features root)
    (nested : ∃ feature ∈ features, feature.IsNested) : hits? root = none := by
  obtain ⟨trees, written, same⟩ := hits?_of_writesCollection collection
  rw [same, mapM_hit?_of_nested written nested]

end Hits

section Readings

variable {hits : List Hit} {features : List GeoFeature}

/-- A hit has the node of its feature. -/
theorem Hit.IsOf.node? {hit : Hit} {feature : GeoFeature} (isOf : hit.IsOf feature) :
    hit.node? = feature.node? := by
  rw [Hit.node?, GeoFeature.node?, isOf.position, isOf.tags, isOf.id]
  cases feature.point? <;> rfl

/-- A hit is usable exactly if its feature has a point. -/
theorem Hit.IsOf.isUsable {hit : Hit} {feature : GeoFeature} (isOf : hit.IsOf feature) :
    (!hit.isUsable) = feature.point?.isNone := by
  rw [← isOf.position]
  cases usable : hit.isUsable with
  | false =>
      rw [position?_of_unusable usable]
      rfl
  | true =>
      obtain ⟨position, placed⟩ := isUsable_iff_exists_position?.1 usable
      rw [placed]
      rfl

/-- The tags of written features can be decoded. -/
theorem areSound_of_areOf (areOf : List.Forall₂ Hit.IsOf hits features) : AreSound hits := by
  induction areOf with
  | nil => exact nofun
  | cons first _ inductionHypothesis =>
      exact List.forall_mem_cons.2 ⟨fun _ => ⟨_, first.tags⟩, inductionHypothesis⟩

/-- The nodes are those of the features that have a point. -/
theorem nodes_of_areOf (areOf : List.Forall₂ Hit.IsOf hits features) :
    nodes hits = features.filterMap GeoFeature.node? := by
  induction areOf with
  | nil => rfl
  | @cons hit feature others rest first _ inductionHypothesis =>
      rw [nodes] at inductionHypothesis ⊢
      rw [List.filterMap_cons, List.filterMap_cons, first.node?, inductionHypothesis]

/-- These are the notices of the features that have no point. -/
def GeoFeature.skipped (features : List GeoFeature) : List Notice :=
  (features.filter fun feature => feature.point?.isNone).map fun feature =>
    .featureSkipped feature.id

/-- There is a warning for each feature that has no point. -/
theorem warnings_of_areOf (areOf : List.Forall₂ Hit.IsOf hits features) :
    warnings hits = GeoFeature.skipped features := by
  induction areOf with
  | nil => rfl
  | @cons hit feature others rest first _ inductionHypothesis =>
      rw [warnings, GeoFeature.skipped] at inductionHypothesis ⊢
      rw [List.filter_cons, List.filter_cons, first.isUsable]
      cases feature.point?.isNone with
      | false => exact inductionHypothesis
      | true => simp only [if_true, List.map_cons, inductionHypothesis, first.id]

end Readings

/--
A collection is read if no feature has nested coordinates. Then the features with a point become nodes
and the others are skipped with a notice each. Otherwise nothing is read at all, whatever the other
features are.
-/
theorem read_collection {features : List GeoFeature} {root : Written} {bytes : List UInt8}
    (collection : WritesCollection features root) (writes : root.WritesDocument bytes) :
    ((∀ feature ∈ features, ¬ feature.IsNested) →
      read bytes = ⟨.featuresReturned features.length :: GeoFeature.skipped features,
        .ok (features.filterMap GeoFeature.node?)⟩) ∧
    ((∃ feature ∈ features, feature.IsNested) →
      ∃ error, read bytes = ⟨[], .error (.json error)⟩) := by
  constructor
  · intro flat
    obtain ⟨trees, written, same⟩ := hits?_of_writesCollection collection
    obtain ⟨found, read, areOf⟩ := exists_hits_of_flat written flat
    have held : hits bytes = .ok found := (hits_eq_ok_iff writes found).2 (same.trans read)
    rw [read_of_areSound held (areSound_of_areOf areOf), warnings_of_areOf areOf,
      nodes_of_areOf areOf, areOf.length_eq]
  · intro nested
    exact read_of_hits?_none writes (hits?_of_nested collection nested)

section Plain

variable (lon lat : Int64)

theorem isCoordinates_plainPosition : IsCoordinates 0 (plainPosition lon lat) := by
  refine ⟨_, rfl, ?_⟩
  intro number member
  rcases List.mem_cons.1 member with rfl | last
  · exact exists_float?_ofInt lon
  · rw [List.mem_singleton.1 last]
    exact exists_float?_ofInt lat

theorem isGeometry_plainShape {name : String} {depth : Nat} {coordinates : Written}
    (listed : (name, depth) ∈ coordinateDepths) (isCoordinates : IsCoordinates depth coordinates) :
    IsGeometry (plainShape name coordinates) :=
  .shape listed (by simp [HasOnly]) (by simp [HasOnly]) isCoordinates

theorem writesFeature_plainFeature (id : ElementId) (pairs : List (String × String))
    {geometry : Written} (isGeometry : IsGeometry geometry) :
    WritesFeature ⟨id, .ofList pairs, some geometry⟩
      (plainFeature id (.object (stringMembers pairs)) geometry) := by
  have idRead : Written.int64? (.number (.ofInt id.toInt)) = some id := Numeral.int64?_ofInt id
  have onlyId : HasOnly "osm_id" (.number (.ofInt id.toInt))
      [("osm_id", .number (.ofInt id.toInt)), ("tags", .object (stringMembers pairs))] := by
    simp [HasOnly]
  exact .object (by simp [HasOnly]) onlyId idRead (.object (by simp [HasOnly]))
    (.object (by simp [HasOnly]) isGeometry)

theorem writesCollection_plainAnswer {features : List GeoFeature} {trees : List Written}
    (each : List.Forall₂ WritesFeature features trees) :
    WritesCollection features (plainAnswer trees) :=
  .object (by simp [HasOnly]) each

theorem coordinatesOf_plainShape (name : String) (coordinates : Written) :
    GeoFeature.coordinatesOf (plainShape name coordinates) = some coordinates := by
  simp [GeoFeature.coordinatesOf, plainShape, field?]

end Plain

section Harbour

def moleTags : List (String × String) := [("name", "Mole")]

/-- One feature is a point, and the other one is left open. -/
def harbourFeatures (geometry : Written) : List GeoFeature :=
  [⟨1, .ofList moleTags, some (plainPoint 1 2)⟩, ⟨2, .ofList [], some geometry⟩]

def harbourTree (geometry : Written) : Written :=
  plainAnswer [plainFeature 1 (.object (stringMembers moleTags)) (plainPoint 1 2),
    plainFeature 2 (.object (stringMembers [])) geometry]

def harbourJson (geometry : Json) : Json :=
  answerJson [featureJson 1 (.object (ofTexts moleTags)) (pointJson 1 2),
    featureJson 2 (.object (ofTexts [])) geometry]

theorem writesCollection_harbour {geometry : Written} (isGeometry : IsGeometry geometry) :
    WritesCollection (harbourFeatures geometry) (harbourTree geometry) := by
  have listed : ("Point", 0) ∈ coordinateDepths := by decide
  have isPoint := isGeometry_plainShape listed (isCoordinates_plainPosition 1 2)
  exact writesCollection_plainAnswer
    (.cons (writesFeature_plainFeature 1 moleTags isPoint)
      (.cons (writesFeature_plainFeature 2 [] isGeometry) .nil))

theorem writesDocument_harbour {json : Json} {geometry : Written} (prints : Prints json geometry) :
    (harbourTree geometry).WritesDocument (Text.bytes (harbourJson json).compact) := by
  have moleTagsPrinted : Prints (.object (ofTexts moleTags)) (.object (stringMembers moleTags)) :=
    prints_object (.cons ⟨rfl, prints_string "Mole"⟩ .nil)
  have noTagsPrinted : Prints (.object (ofTexts [])) (.object (stringMembers [])) :=
    prints_object .nil
  exact writesDocument_plainAnswer
    (.cons (prints_plainFeature 1 moleTagsPrinted (prints_plainPoint 1 2))
      (.cons (prints_plainFeature 2 noTagsPrinted prints) .nil))

def lineTree : Written :=
  plainShape "LineString" (.array [plainPosition 1 2, plainPosition 3 4])

def lineJson : Json := shapeJson "LineString" (.array [positionJson 1 2, positionJson 3 4])

theorem isGeometry_line : IsGeometry lineTree := by
  have listed : ("LineString", 1) ∈ coordinateDepths := by decide
  apply isGeometry_plainShape listed
  refine ⟨_, rfl, ?_⟩
  intro item member
  rcases List.mem_cons.1 member with rfl | last
  · exact isCoordinates_plainPosition 1 2
  · rw [List.mem_singleton.1 last]
    exact isCoordinates_plainPosition 3 4

theorem prints_line : Prints lineJson lineTree :=
  prints_plainShape "LineString"
    (prints_array (.cons (prints_plainPosition 1 2) (.cons (prints_plainPosition 3 4) .nil)))

/-- A line sinks the point beside it. -/
theorem read_collection_line :
    WritesCollection (harbourFeatures lineTree) (harbourTree lineTree) ∧
      (harbourTree lineTree).WritesDocument (Text.bytes (harbourJson lineJson).compact) ∧
      ∀ elements, (read (Text.bytes (harbourJson lineJson).compact)).result ≠ .ok elements := by
  have collection := writesCollection_harbour isGeometry_line
  have writes := writesDocument_harbour prints_line
  have isNested : (⟨2, .ofList [], some lineTree⟩ : GeoFeature).IsNested :=
    ⟨_, _, coordinatesOf_plainShape "LineString" _⟩
  have nested : ∃ feature ∈ harbourFeatures lineTree, feature.IsNested :=
    ⟨_, List.mem_cons_of_mem _ List.mem_cons_self, isNested⟩
  refine ⟨collection, writes, ?_⟩
  intro elements succeeded
  obtain ⟨error, failed⟩ := read_of_hits?_none writes (hits?_of_nested collection nested)
  rw [failed] at succeeded
  cases succeeded

/-- In a collection of geometries the same line does no harm. -/
def groupTree : Written :=
  .object [("type", .string "GeometryCollection"), ("geometries", .array [lineTree])]

def groupJson : Json :=
  .object [("type", .string "GeometryCollection"), ("geometries", .array [lineJson])]

theorem isGeometry_group : IsGeometry groupTree := by
  have onlyGeometries : HasOnly "geometries" (.array [lineTree])
      [("type", .string "GeometryCollection"), ("geometries", .array [lineTree])] := by
    simp [HasOnly]
  apply IsGeometry.collection (by simp [HasOnly]) (by simp [Lacks]) onlyGeometries
  intro item member
  rw [List.mem_singleton.1 member]
  exact isGeometry_line

theorem prints_group : Prints groupJson groupTree :=
  prints_object (.cons ⟨rfl, prints_string "GeometryCollection"⟩
    (.cons ⟨rfl, prints_array (.cons prints_line .nil)⟩ .nil))

/-- A group of geometries has no coordinates, so its feature is skipped with a warning. -/
theorem read_collection_group :
    ∃ position, read (Text.bytes (harbourJson groupJson).compact) =
      ⟨[.featuresReturned 2, .featureSkipped 2], .ok [.node 1 position (.ofList moleTags)]⟩ := by
  obtain ⟨lon, lat, read⟩ := exists_coordinates?_plainPosition 1 2
  have noCoordinates : GeoFeature.coordinatesOf groupTree = none := by
    simp [GeoFeature.coordinatesOf, groupTree, field?]
  have flat : ∀ feature ∈ harbourFeatures groupTree, ¬ feature.IsNested := by
    rintro feature member ⟨inner, rest, nested⟩
    rcases List.mem_cons.1 member with rfl | last
    · cases (coordinatesOf_plainShape "Point" (plainPosition 1 2)).symm.trans nested
    · rw [List.mem_singleton.1 last] at nested
      cases noCoordinates.symm.trans nested
  have point : GeoFeature.point? ⟨1, .ofList moleTags, some (plainPoint 1 2)⟩ = some ⟨lon, lat⟩ := by
    simp [GeoFeature.point?, plainPoint, coordinatesOf_plainShape, read]
  have noPoint : GeoFeature.point? ⟨2, .ofList [], some groupTree⟩ = none := by
    simp [GeoFeature.point?, noCoordinates]
  obtain ⟨whenFlat, _⟩ :=
    read_collection (writesCollection_harbour isGeometry_group)
      (writesDocument_harbour prints_group)
  refine ⟨⟨lon, lat⟩, ?_⟩
  rw [whenFlat flat]
  simp [harbourFeatures, GeoFeature.skipped, GeoFeature.node?, point, noPoint]

end Harbour

end LightList.Postpass
