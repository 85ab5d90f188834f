/-
This file says which documents hold elements and which elements these are, and shows that exactly
they are read.

The format is stated on trees. Objects may have further members and name their members in any order;
an element may also stand as a list of its fields.
-/

import LightList.Proofs.Json.Structures
import LightList.Proofs.TextBytes
import LightList.Source

namespace LightList.Overpass

open Json Json.Written Json.Reader

def kind? : Written → Option Kind := variant? Kind.ofName?

def references? : Written → Option (Option (List ElementId)) := orNull? (listOf? int64?)

/-- Two coordinates make a point of any element; only a way may lie on references instead. -/
def placeOf (kind : Kind) (lat lon : Option Float) (references : Option (List ElementId)) :
    Geometry :=
  match lat.bind fun lat => lon.map fun lon => (⟨lon, lat⟩ : Position) with
  | some position => .point position
  | none => if kind = .way then references.elim .absent .path else .absent

def described (kind : Kind) (id : ElementId) (lat lon : Option Float)
    (references : Option (List ElementId)) (tags : Option Tags) : Element where
  kind := kind
  id := id
  tags := tags.elim .empty fun tags => tags
  geometry := placeOf kind lat lon references

/-- No field may occur twice; the kind and the identifier must occur. -/
def elementOfMembers? (members : List (String × Written)) : Option Element := do
  let kind ← field? "type" kind? members
  let id ← field? "id" int64? members
  let lat ← field? "lat" (orNull? float?) members
  let lon ← field? "lon" (orNull? float?) members
  let references ← field? "nodes" references? members
  let tags ← field? "tags" (orNull? tags?) members
  return described (← kind) (← id) lat.join lon.join references.join tags.join

/-- In a list the fields stand in their order, and only the tags may be missing. -/
def takeFields : Taking Element := do
  let kind ← takeItem kind?
  let id ← takeItem int64?
  let lat ← takeItem (orNull? float?)
  let lon ← takeItem (orNull? float?)
  let references ← takeItem references?
  let tags ← takeItemOr (orNull? tags?) none
  return described kind id lat lon references tags

def element? : Written → Option Element := record? elementOfMembers? (takeAll? takeFields)

/-- The root has exactly one list of elements, and every item of it is one. -/
def elementsOfMembers? (members : List (String × Written)) : Option (List Element) :=
  (field? "elements" (listOf? element?) members).join

/-- These are the elements that the document holds, if it has the format. -/
def elements? : Written → Option (List Element) :=
  record? elementsOfMembers? (takeAll? (takeItem (listOf? element?)))

/-- The geometry that the reader decides on is the one of the format. -/
theorem geometryOf_eq_placeOf (kind : Kind) (lat lon : Option Float)
    (references : Option (List ElementId)) :
    geometryOf kind lat lon references = placeOf kind lat lon references := by
  cases lat <;> cases lon <;> cases kind <;> cases references <;> rfl

/-- The element that the reader makes is the one that the format describes. -/
theorem elementOf_eq_described (kind : Kind) (id : ElementId) (lat lon : Option Float)
    (references : Option (List ElementId)) (tags : Option Tags) :
    elementOf kind id lat lon references tags = described kind id lat lon references tags := by
  rw [elementOf, described, geometryOf_eq_placeOf]
  cases tags <;> rfl

/-- The reader of kinds takes the known names and nothing else. -/
theorem reads_kindReader : Reads kindReader kind? := reads_variant _ _

/-- The reader of references takes lists of ids. -/
theorem reads_nodesReader : Reads nodesReader references? := reads_orNull (reads_listOf reads_int64)

/-- The fields of an element, if each of them is settled. -/
def Draft.ofFields (kind : Option (Option Kind)) (id : Option (Option ElementId))
    (lat lon : Option (Option (Option Float)))
    (nodes : Option (Option (Option (List ElementId)))) (tags : Option (Option (Option Tags))) :
    Option Draft := do
  return ⟨← kind, ← id, ← lat, ← lon, ← nodes, ← tags⟩

/-- A draft is complete in every field that was decoded. -/
theorem Draft.ofFields_eq_some_iff {kind : Option (Option Kind)} {id : Option (Option ElementId)}
    {lat lon : Option (Option (Option Float))}
    {nodes : Option (Option (Option (List ElementId)))} {tags : Option (Option (Option Tags))}
    {draft : Draft} :
    ofFields kind id lat lon nodes tags = some draft ↔
      kind = some draft.kind ∧ id = some draft.id ∧ lat = some draft.lat ∧
        lon = some draft.lon ∧ nodes = some draft.nodes ∧ tags = some draft.tags := by
  obtain ⟨ownKind, ownId, ownLat, ownLon, ownNodes, ownTags⟩ := draft
  simp only [ofFields, Option.bind_eq_bind, Option.bind_eq_some_iff, Option.pure_def,
    Option.some.injEq, mk.injEq]
  constructor
  · rintro ⟨_, kind, _, id, _, lat, _, lon, _, nodes, _, tags, rfl, rfl, rfl, rfl, rfl, rfl⟩
    exact ⟨kind, id, lat, lon, nodes, tags⟩
  · rintro ⟨kind, id, lat, lon, nodes, tags⟩
    exact ⟨_, kind, _, id, _, lat, _, lon, _, nodes, _, tags, rfl, rfl, rfl, rfl, rfl, rfl⟩

/-- This is what one member makes of the fields met so far; each looks at its own name alone. -/
def Draft.meet? (draft : Draft) (entry : String × Written) : Option Draft :=
  ofFields (Written.meet? "type" kind? draft.kind entry)
    (Written.meet? "id" int64? draft.id entry)
    (Written.meet? "lat" (orNull? float?) draft.lat entry)
    (Written.meet? "lon" (orNull? float?) draft.lon entry)
    (Written.meet? "nodes" references? draft.nodes entry)
    (Written.meet? "tags" (orNull? tags?) draft.tags entry)

section Fields

variable {tree : Written} {before after core rest : List UInt8}

/-- A member that is read changes the draft as the format says. -/
theorem outcome?_field (draft : Draft) (key : String) (isBefore : IsGap before)
    (isAfter : IsGap after) (writes : Writes tree core) (delimited : Delimited rest) :
    outcome? (draft.field key) (before ++ colon :: (after ++ (core ++ rest))) =
      (draft.meet? (key, tree)).map fun draft => (draft, rest) := by
  unfold Draft.field
  split
  · rw [outcome?_bind, outcome?_once _ _ reads_kindReader isBefore isAfter writes delimited]
    cases met : Written.meet? "type" kind? draft.kind ("type", tree) <;>
      simp [Draft.meet?, Draft.ofFields, met, meet?_of_ne]
  · rw [outcome?_bind, outcome?_once _ _ reads_int64 isBefore isAfter writes delimited]
    cases met : Written.meet? "id" int64? draft.id ("id", tree) <;>
      simp [Draft.meet?, Draft.ofFields, met, meet?_of_ne]
  · rw [outcome?_bind,
      outcome?_once _ _ (reads_orNull reads_float) isBefore isAfter writes delimited]
    cases met : Written.meet? "lat" (orNull? float?) draft.lat ("lat", tree) <;>
      simp [Draft.meet?, Draft.ofFields, met, meet?_of_ne]
  · rw [outcome?_bind,
      outcome?_once _ _ (reads_orNull reads_float) isBefore isAfter writes delimited]
    cases met : Written.meet? "lon" (orNull? float?) draft.lon ("lon", tree) <;>
      simp [Draft.meet?, Draft.ofFields, met, meet?_of_ne]
  · rw [outcome?_bind, outcome?_once _ _ reads_nodesReader isBefore isAfter writes delimited]
    cases met : Written.meet? "nodes" references? draft.nodes ("nodes", tree) <;>
      simp [Draft.meet?, Draft.ofFields, met, meet?_of_ne]
  · rw [outcome?_bind,
      outcome?_once _ _ (reads_orNull reads_tagMap) isBefore isAfter writes delimited]
    cases met : Written.meet? "tags" (orNull? tags?) draft.tags ("tags", tree) <;>
      simp [Draft.meet?, Draft.ofFields, met, meet?_of_ne]
  · next notType notId notLat notLon notNodes notTags =>
      rw [outcome?_bind, outcome?_unknownField isBefore isAfter writes delimited, Draft.meet?,
        meet?_of_ne "type" _ notType, meet?_of_ne "id" _ notId, meet?_of_ne "lat" _ notLat,
        meet?_of_ne "lon" _ notLon, meet?_of_ne "nodes" _ notNodes,
        meet?_of_ne "tags" _ notTags]
      rfl

end Fields

/-- Over all members each field is decided on its own. -/
theorem foldlM_meet?_eq_some_iff {members : List (String × Written)} {draft last : Draft} :
    members.foldlM Draft.meet? draft = some last ↔
      members.foldlM (Written.meet? "type" kind?) draft.kind = some last.kind ∧
      members.foldlM (Written.meet? "id" int64?) draft.id = some last.id ∧
      members.foldlM (Written.meet? "lat" (orNull? float?)) draft.lat = some last.lat ∧
      members.foldlM (Written.meet? "lon" (orNull? float?)) draft.lon = some last.lon ∧
      members.foldlM (Written.meet? "nodes" references?) draft.nodes = some last.nodes ∧
      members.foldlM (Written.meet? "tags" (orNull? tags?)) draft.tags = some last.tags := by
  induction members generalizing draft with
  | nil =>
      obtain ⟨kind, id, lat, lon, nodes, tags⟩ := draft
      obtain ⟨lastKind, lastId, lastLat, lastLon, lastNodes, lastTags⟩ := last
      simp [Pure.pure]
  | cons entry rest inductionHypothesis =>
      have opened {State : Type} (step : State → String × Written → Option State)
          (start final : State) :
          (entry :: rest).foldlM step start = some final ↔
            ∃ next, step start entry = some next ∧ rest.foldlM step next = some final := by
        rw [List.foldlM_cons]
        exact Option.bind_eq_some_iff
      simp only [opened]
      constructor
      · rintro ⟨next, met, continued⟩
        obtain ⟨kind, id, lat, lon, nodes, tags⟩ := Draft.ofFields_eq_some_iff.1 met
        obtain ⟨restKind, restId, restLat, restLon, restNodes, restTags⟩ :=
          inductionHypothesis.1 continued
        exact ⟨⟨_, kind, restKind⟩, ⟨_, id, restId⟩, ⟨_, lat, restLat⟩, ⟨_, lon, restLon⟩,
          ⟨_, nodes, restNodes⟩, ⟨_, tags, restTags⟩⟩
      · rintro ⟨⟨nextKind, kind, restKind⟩, ⟨nextId, id, restId⟩, ⟨nextLat, lat, restLat⟩,
          ⟨nextLon, lon, restLon⟩, ⟨nextNodes, nodes, restNodes⟩, ⟨nextTags, tags, restTags⟩⟩
        apply Exists.intro (⟨nextKind, nextId, nextLat, nextLon, nextNodes, nextTags⟩ : Draft)
        exact ⟨Draft.ofFields_eq_some_iff.2 ⟨kind, id, lat, lon, nodes, tags⟩,
          inductionHypothesis.2 ⟨restKind, restId, restLat, restLon, restNodes, restTags⟩⟩

/-- The fields of an object are each settled by how often their names occur. -/
theorem foldlM_meet? (members : List (String × Written)) :
    members.foldlM Draft.meet? .empty =
      Draft.ofFields (field? "type" kind? members) (field? "id" int64? members)
        (field? "lat" (orNull? float?) members) (field? "lon" (orNull? float?) members)
        (field? "nodes" references? members) (field? "tags" (orNull? tags?) members) := by
  apply Option.ext
  intro last
  rw [foldlM_meet?_eq_some_iff, Draft.ofFields_eq_some_iff]
  simp only [Draft.empty, Written.foldlM_meet?]

/-- A draft with a kind and an identifier describes an element. -/
def Draft.described? (draft : Draft) : Option Element := do
  return described (← draft.kind) (← draft.id) draft.lat.join draft.lon.join draft.nodes.join
    draft.tags.join

/-- A draft is an element if it has a kind and an id. -/
theorem outcome?_finish (draft : Draft) (input : List UInt8) :
    outcome? draft.finish input = draft.described?.map fun element => (element, input) := by
  obtain ⟨kind, id, lat, lon, nodes, tags⟩ := draft
  simp only [Draft.finish, Draft.described?, ← elementOf_eq_described]
  cases kind with
  | none => rfl
  | some kind =>
      cases id with
      | none => rfl
      | some id => cases lat <;> cases lon <;> cases nodes <;> cases tags <;> rfl

/-- The members of an object may be taken one after another. -/
theorem elementOfMembers?_eq (members : List (String × Written)) :
    elementOfMembers? members = (members.foldlM Draft.meet? .empty).bind Draft.described? := by
  rw [foldlM_meet?]
  simp only [elementOfMembers?, Draft.ofFields, Draft.described?, Option.bind_eq_bind,
    Option.pure_def, Option.bind_assoc, Option.bind_some]

section Elements

variable {members : List (String × Written)} {items : List Written} {inner rest : List UInt8}

/-- An object is read as the element that its members describe. -/
theorem outcome?_elementOfObject (writes : WritesList (WritesMember Writes) true members inner) :
    outcome? elementOfObject (inner ++ closeBrace :: rest) =
      (elementOfMembers? members).map fun element => (element, closeBrace :: rest) := by
  have read : outcome? (Reader.members Draft.field .empty) (inner ++ closeBrace :: rest) =
      (members.foldlM Draft.meet? .empty).map fun draft => (draft, closeBrace :: rest) :=
    outcome?_members Draft.meet?
      (fun draft key _ _ _ _ _ isBefore isAfter writes delimited =>
        outcome?_field draft key isBefore isAfter writes delimited)
      writes .empty
  rw [elementOfObject, outcome?_bind, read, elementOfMembers?_eq]
  cases members.foldlM Draft.meet? .empty with
  | none => rfl
  | some draft => exact outcome?_finish draft _

/-- A list is read as the element whose fields it has in their order. -/
theorem readsItems_elementOfList : ReadsItems true elementOfList takeFields := by
  apply ReadsItems.bind (readsItems_fieldAt elementName 6 0 reads_kindReader)
  intro kind
  apply ReadsItems.bind (readsItems_fieldAt elementName 6 1 reads_int64)
  intro id
  apply ReadsItems.bind (readsItems_fieldAt elementName 6 2 (reads_orNull reads_float))
  intro lat
  apply ReadsItems.bind (readsItems_fieldAt elementName 6 3 (reads_orNull reads_float))
  intro lon
  apply ReadsItems.bind (readsItems_fieldAt elementName 6 4 reads_nodesReader)
  intro references
  apply ReadsItems.bind (readsItems_fieldOr 5 (reads_orNull reads_tagMap) none)
  intro tags
  rw [elementOf_eq_described]
  exact ReadsItems.pure _

end Elements

/-- The reader of elements takes what the format describes as one. -/
theorem reads_elementReader : Reads elementReader element? :=
  reads_record _ (fun _ _ _ writes => outcome?_elementOfObject writes)
    (fun _ _ _ writes => outcome?_enclosed_list readsItems_elementOfList writes)

/-- Of the members of the root only the one with the elements is looked at. -/
theorem rootField_of_ne (earlier : Option (List Element)) (key : String)
    (notElements : key ≠ "elements") :
    rootField earlier key = do
      unknownField
      return earlier := by
  unfold rootField
  split
  · exact (notElements rfl).elim
  · rfl

/-- The reader of documents takes what the format describes as one. -/
theorem reads_rootReader : Reads rootReader elements? := by
  apply reads_record
  · intro members inner rest writes
    have read : outcome? (Reader.members rootField none) (inner ++ closeBrace :: rest) = _ :=
      outcome?_members_one (reads_listOf reads_elementReader) (fun _ => rfl) rootField_of_ne writes
    rw [outcome?_bind, read, elementsOfMembers?]
    cases field? "elements" (listOf? element?) members with
    | none => rfl
    | some found => cases found <;> rfl
  · intro items inner rest writes
    exact outcome?_enclosed_list
      (readsItems_fieldAt rootName 1 0 (reads_listOf reads_elementReader)) writes

/-- A document is read as the elements of its tree, and refused where there are none. -/
theorem read_eq_ok_iff {tree : Written} {bytes : List UInt8} (writes : tree.WritesDocument bytes)
    (elements : List Element) : read bytes = .ok elements ↔ elements? tree = some elements :=
  document_eq_ok_iff reads_rootReader writes elements

end LightList.Overpass

namespace LightList.Source

/-- A document is read as the elements that it holds, and one without the format is refused. -/
theorem overpass_reads_format {tree : Json.Written} {bytes : List UInt8}
    (writes : tree.WritesDocument bytes) :
    match Overpass.elements? tree with
    | some elements => overpass (.ok bytes) = .ok elements
    | none => ∃ error, overpass (.ok bytes) = .error (.json error) := by
  have decided := Overpass.read_eq_ok_iff writes
  cases found : Overpass.elements? tree with
  | some elements =>
      have read := (decided elements).2 found
      rw [overpass, read]
      rfl
  | none =>
      cases read : Overpass.read bytes with
      | ok elements =>
          rw [(decided elements).1 read] at found
          cases found
      | error error =>
          apply Exists.intro error
          rw [overpass, read]
          rfl

/-- This is a way that names a tag twice. -/
def repeatedWay : Json.Written :=
  .object [("tags", .object [("name", .string "a"), ("name", .string "b")]),
    ("id", .number ⟨true, ⟨[0x37], by decide, by decide⟩, none, none, by decide⟩),
    ("type", .string "way"), ("nodes", .array [])]

def wayTree : Json.Written := .object [("note", .null), ("elements", .array [repeatedWay])]

def wayDocument : String :=
  " \x7b\"note\":null, \"elements\":[\x7b\"tags\":\x7b\"name\":\"a\",\"name\":\"b\"\x7d," ++
    "\"id\":-7,\"type\":\"way\",\"nodes\":[]\x7d]\x7d\n"

theorem wayTree_writesDocument : wayTree.WritesDocument (Text.bytes wayDocument) := by
  have none : Json.IsGap [] := rfl
  have space : Json.IsGap [0x20] := rfl
  have newline : Json.IsGap [Json.lineFeed] := rfl
  have first : Json.WritesText "a" _ := Json.writesText_plain (by decide)
  have second : Json.WritesText "b" _ := Json.writesText_plain (by decide)
  have kind : Json.WritesText "way" _ := Json.writesText_plain (by decide)
  have name : Json.WritesText "name" _ := Json.writesText_plain (by decide)
  have way : repeatedWay.Writes _ :=
    .object (.first none (.pair (Json.writesText_plain (by decide)) none none
        (.object (.first none (.pair name none none (.string first))
          (.next none none (.pair name none none (.string second)) (.done none)))))
      (.next none none (.pair (Json.writesText_plain (by decide)) none none (.number _))
        (.next none none (.pair (Json.writesText_plain (by decide)) none none (.string kind))
          (.next none none
            (.pair (Json.writesText_plain (by decide)) none none (.array (.done none)))
            (.done none)))))
  have root : wayTree.Writes _ :=
    .object (.first none (.pair (Json.writesText_plain (by decide)) none none .null)
      (.next none space (.pair (Json.writesText_plain (by decide)) none none
        (.array (.first none way (.done none)))) (.done none)))
  have written : wayTree.WritesDocument _ := .around space root newline
  rw [Text.bytes_eq]
  exact written

/-- The way is given as a list of its fields, with a tag that is set twice. -/
theorem overpass_reads_way :
    wayTree.WritesDocument (Text.bytes wayDocument) ∧
      overpass (.ok (Text.bytes wayDocument)) = .ok [.way (-7) [] (.ofList [("name", "b")])] :=
  ⟨wayTree_writesDocument, overpass_reads_format wayTree_writesDocument⟩

end LightList.Source
