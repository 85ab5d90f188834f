/-
This file shows that identifiers are read exactly or not at all.

A document is fixed but for one place: the identifier of an element, one of its references, or the
identifier of a feature. Whatever number stands there, it is read as the number that it is, or the
document is refused.
-/

import LightList.Proofs.ElementFrames
import LightList.Proofs.FinitePlaces
import LightList.Proofs.Json.NumeralIds
import LightList.Proofs.PostpassTags

namespace LightList

open Json Json.Written

/--
At the open place of this document an identifier is read as its number, and no other number is
accepted.
-/
structure ReadsIdsExactly (read : List UInt8 → Reading) (document : Written → Written)
    (result : ElementId → Reading) : Prop where
  accepts {numeral : Numeral} {bytes : List UInt8} :
    (document (.number numeral)).WritesDocument bytes → numeral.IsId →
      ∃ id : ElementId, (id.toInt : ℚ) = numeral.value ∧ read bytes = result id
  refuses {numeral : Numeral} {bytes : List UInt8} :
    (document (.number numeral)).WritesDocument bytes → ¬ numeral.IsId →
      ∃ error, read bytes = ⟨[], .error (.json error)⟩

/-- What is read from trees has only to depend on the identifier that the number is read as. -/
theorem readsIdsExactly_of_int64? {Value : Type} {read : List UInt8 → Reading}
    {value? : Written → Option Value} {give : Value → Reading}
    (accepted : ∀ {tree : Written} {bytes value}, tree.WritesDocument bytes →
      value? tree = some value → read bytes = give value)
    (refused : ∀ {tree : Written} {bytes}, tree.WritesDocument bytes → value? tree = none →
      ∃ error, read bytes = ⟨[], .error (.json error)⟩)
    {document : Written → Written} {result : ElementId → Value}
    (exchanged : ∀ numeral : Numeral,
      value? (document (.number numeral)) = numeral.int64?.map result) :
    ReadsIdsExactly read document fun id => give (result id) where
  accepts {numeral bytes} writes isId := by
    obtain ⟨id, isRead, same⟩ := isId.exists_int64?
    refine ⟨id, same, accepted writes ?_⟩
    rw [exchanged, isRead]
    rfl
  refuses {numeral bytes} writes other := by
    apply refused writes
    rw [exchanged, Numeral.int64?_of_not_isId other]
    rfl

namespace Overpass

/-- Nothing is reported while a document of this format is read. -/
def reading (bytes : List UInt8) : Reading := ⟨[], Source.overpass (.ok bytes)⟩

/-- This is the element with other references; only a way without a position lies on them. -/
def referring (element : Element) (lat lon : Option Float) (references : List ElementId) :
    Element :=
  { element with geometry := placeOf element.kind lat lon (some references) }

/-- A way that lies on references has no position of its own, so it lies on any others as well. -/
theorem referring_way {id : ElementId} {references others : List ElementId} {tags : Tags}
    {lat lon : Option Float}
    (lies : Element.way id references tags = referring (.way id references tags) lat lon others) :
    references = others ∧
      ∀ more, referring (.way id references tags) lat lon more = .way id more tags := by
  have placed : Geometry.path references = placeOf .way lat lon (some others) :=
    congrArg Element.geometry lies
  cases position : lat.bind fun lat => lon.map fun lon => (⟨lon, lat⟩ : Position) with
  | some position =>
      rw [placeOf, position] at placed
      cases placed
  | none =>
      have path (more : List ElementId) : placeOf .way lat lon (some more) = .path more := by
        rw [placeOf, position]
        rfl
      rw [path] at placed
      refine ⟨Geometry.path.inj placed, ?_⟩
      intro more
      exact congrArg (Element.mk .way id tags) (path more)

section Readings

variable {tree : Written} {bytes : List UInt8} {elements : List Element}

/-- A document that has elements is read as them, without notices. -/
theorem reading_of_elements? (writes : tree.WritesDocument bytes)
    (held : elements? tree = some elements) : reading bytes = ⟨[], .ok elements⟩ := by
  rw [reading, Source.overpass, (read_eq_ok_iff writes elements).2 held]
  rfl

/-- A document without elements is refused as malformed. -/
theorem reading_of_elements?_none (writes : tree.WritesDocument bytes)
    (none : elements? tree = none) : ∃ error, reading bytes = ⟨[], .error (.json error)⟩ := by
  cases result : read bytes with
  | error error =>
      refine ⟨error, ?_⟩
      rw [reading, Source.overpass, result]
      rfl
  | ok found =>
      rw [(read_eq_ok_iff writes found).1 result] at none
      cases none

/-- What is read from a document are the elements that its tree has. -/
theorem elements?_of_overpass (writes : tree.WritesDocument bytes)
    (succeeded : Source.overpass (.ok bytes) = .ok elements) : elements? tree = some elements := by
  apply (read_eq_ok_iff writes elements).1
  rw [Source.overpass] at succeeded
  cases result : read bytes with
  | error error =>
      rw [result] at succeeded
      cases succeeded
  | ok found =>
      rw [result] at succeeded
      cases succeeded
      rfl

end Readings

section Places

variable (surroundings : Surroundings) {bytes : List UInt8} {elements : List Element}

/-- The id of an element is read exactly, or the document is refused. -/
theorem readsIdsExactly_id (isAt : surroundings.element.IsAt 1) {sample : Written}
    (writes : (surroundings.document "id" sample).WritesDocument bytes)
    (succeeded : Source.overpass (.ok bytes) = .ok elements) :
    ∃ before element after, elements = before ++ element :: after ∧
      before.length = surroundings.front.length ∧
      ReadsIdsExactly reading (surroundings.document "id") fun id =>
        ⟨[], .ok (before ++ { element with id } :: after)⟩ := by
  obtain ⟨before, element, after, rfl, sameLength, found, exchanged⟩ :=
    surroundings.elements?_document (elements?_of_overpass writes succeeded)
  refine ⟨before, element, after, rfl, sameLength, ?_⟩
  apply readsIdsExactly_of_int64? reading_of_elements? reading_of_elements?_none
  intro numeral
  rw [exchanged, element?_plug_id isAt found, Option.map_map]
  rfl

/-- A reference of a way is read exactly, or the document is refused. -/
theorem readsIdsExactly_reference (isAt : surroundings.element.IsAt 4) {front back : List Written}
    {sample : Written}
    (writes : (surroundings.document "nodes" (.array (front ++ sample :: back))).WritesDocument bytes)
    (succeeded : Source.overpass (.ok bytes) = .ok elements) :
    ∃ before element after earlier old later lat lon, elements = before ++ element :: after ∧
      before.length = surroundings.front.length ∧ earlier.length = front.length ∧
      element = referring element lat lon (earlier ++ old :: later) ∧
      ReadsIdsExactly reading
        (fun tree => surroundings.document "nodes" (.array (front ++ tree :: back))) fun id =>
          ⟨[], .ok (before ++ referring element lat lon (earlier ++ id :: later) :: after)⟩ := by
  obtain ⟨before, element, after, rfl, sameLength, found, exchanged⟩ :=
    surroundings.elements?_document (elements?_of_overpass writes succeeded)
  obtain ⟨lat, lon, references, read, placed, exchangedPlace⟩ := element?_plug_nodes isAt found
  obtain ⟨ids, listed, rfl⟩ := Option.map_eq_some_iff.1 read
  obtain ⟨earlier, old, later, rfl, sameCount, _, exchangedId⟩ := mapM_exchange listed
  have same : element = referring element lat lon (earlier ++ old :: later) := by
    rw [referring, ← placed]
  refine ⟨before, element, after, earlier, old, later, lat, lon, rfl, sameLength, sameCount, same,
    ?_⟩
  apply readsIdsExactly_of_int64? reading_of_elements? reading_of_elements?_none
  intro numeral
  have otherRead : references? (.array (front ++ .number numeral :: back)) =
      (numeral.int64?.map fun id => earlier ++ id :: later).map some :=
    congrArg (Option.map some) (exchangedId (.number numeral))
  rw [exchanged, exchangedPlace, otherRead, Option.map_map, Option.map_map, Option.map_map]
  rfl

end Places

end Overpass

namespace Postpass

/-- This is a document without the identifier of one of its features. -/
structure Unidentified where
  root : Frame
  front : List Written
  back : List Written
  feature : Frame
  properties : Frame
  rootAt : root.IsAt 0
  featureAt : feature.IsAt 0
  propertiesAt : properties.IsAt 0

def Unidentified.document (unidentified : Unidentified) (id : Written) : Written :=
  unidentified.root.plug "features"
    (.array (unidentified.front ++
      unidentified.feature.plug "properties" (unidentified.properties.plug "osm_id" id) ::
        unidentified.back))

/-- Another id among the properties changes only the id that is found there. -/
theorem properties?_plug_id {frame : Frame} {tree : Written} (isAt : frame.IsAt 0)
    {properties : Properties} (found : properties? (frame.plug "osm_id" tree) = some properties)
    (other : Written) :
    properties? (frame.plug "osm_id" other) =
      (int64? other).map fun id => { properties with id } := by
  cases frame with
  | object front back =>
      have different : "osm_id" ≠ "tags" := by decide
      change propertiesOfMembers? _ = _ at found
      change propertiesOfMembers? _ = _
      simp only [propertiesOfMembers?, Option.bind_eq_bind, Option.bind_eq_some_iff,
        field?_plug_of_ne different] at found ⊢
      obtain ⟨_, idField, tags, tagsField, id, rfl, same⟩ := found
      cases same
      obtain ⟨_, _, same, exchanged⟩ := field?_plug idField
      cases same
      rw [exchanged other, tagsField]
      cases int64? other with
      | none => rfl
      | some id => rfl
  | list front back =>
      obtain rfl := List.length_eq_zero_iff.1 isAt
      change takeAll? takeProperties (tree :: back) = _ at found
      change takeAll? takeProperties (other :: back) = _
      simp only [takeProperties, takeAll?_takeItem_bind, takeAll?_bind_pure] at found ⊢
      obtain ⟨id, _, found⟩ := Option.bind_eq_some_iff.1 found
      obtain ⟨tags, taken, rfl⟩ := Option.map_eq_some_iff.1 found
      rw [taken]
      cases int64? other with
      | none => rfl
      | some id => rfl

/--
This is what is read where all usable features decode and one feature has this identifier, which its
node has or the warning names.
-/
def identified (before : List Hit) (hit : Hit) (after : List Hit) (id : ElementId) : Reading where
  notices := .featuresReturned (before ++ hit :: after).length ::
    (warnings before ++ (if hit.isUsable then [] else [.featureSkipped id]) ++ warnings after)
  result := .ok (nodes before ++ (nodes [hit]).map (fun element => { element with id }) ++ nodes after)

section Identifiers

variable {hit : Hit} {before after : List Hit}

/-- Features are placed by their coordinates and tagged by their tags, whatever their identifiers. -/
theorem Hit.node?_setId (hit : Hit) (id : ElementId) :
    Hit.node? { hit with id } = hit.node?.map fun element => { element with id } := by
  have samePosition : Hit.position? { hit with id } = hit.position? := rfl
  rw [Hit.node?, Hit.node?, samePosition]
  cases hit.position? with
  | none => rfl
  | some position => cases decodeTags hit.tags <;> rfl

theorem nodes_singleton (hit : Hit) : nodes [hit] = hit.node?.toList := by
  rw [nodes, List.filterMap_cons]
  cases hit.node? <;> rfl

/-- Another id of a hit changes only the id of its node. -/
theorem nodes_setId (hit : Hit) (id : ElementId) :
    nodes [{ hit with id }] = (nodes [hit]).map fun element => { element with id } := by
  rw [nodes_singleton, nodes_singleton, hit.node?_setId]
  cases hit.node? <;> rfl

/-- Another id of a hit changes only the id in its warning. -/
theorem warnings_setId (hit : Hit) (id : ElementId) :
    warnings [{ hit with id }] = if hit.isUsable then [] else [.featureSkipped id] := by
  have sameUse : Hit.isUsable { hit with id } = hit.isUsable := rfl
  cases usable : hit.isUsable with
  | true => simp [warnings, sameUse, usable]
  | false => simp [warnings, sameUse, usable]

/-- The id of a hit does not decide whether its tags can be decoded. -/
theorem AreSound.setId (sound : AreSound (before ++ hit :: after)) (id : ElementId) :
    AreSound (before ++ { hit with id } :: after) := by
  intro other member usable
  rcases List.mem_append.1 member with inside | inside
  · exact sound other (List.mem_append_left _ inside) usable
  · rcases List.mem_cons.1 inside with rfl | inside
    · exact sound hit (List.mem_append_right before List.mem_cons_self) usable
    · exact sound other (List.mem_append_right before (List.mem_cons_of_mem hit inside)) usable

/-- An answer that is read has hits whose tags can be decoded. -/
theorem exists_hits_of_result {bytes : List UInt8} {elements : List Element}
    (succeeded : (read bytes).result = .ok elements) :
    ∃ found, hits bytes = .ok found ∧ AreSound found := by
  cases held : hits bytes with
  | error error =>
      rw [read, held] at succeeded
      cases succeeded
  | ok found =>
      refine ⟨found, rfl, ?_⟩
      rcases areSound_or_exists_spoilt found with
        sound | ⟨earlier, spoilt, later, error, rfl, sound, usable, broken⟩
      · exact sound
      · rw [read_of_spoilt held sound usable broken] at succeeded
        cases succeeded

/-- The id of a feature is read exactly, or the answer is refused. -/
theorem readsIdsExactly_osmId (unidentified : Unidentified) {sample : Written}
    {bytes : List UInt8} {elements : List Element}
    (writes : (unidentified.document sample).WritesDocument bytes)
    (succeeded : (read bytes).result = .ok elements) :
    ∃ before hit after, hits bytes = .ok (before ++ hit :: after) ∧
      before.length = unidentified.front.length ∧
      ReadsIdsExactly read unidentified.document (identified before hit after) := by
  obtain ⟨found, held, sound⟩ := exists_hits_of_result succeeded
  obtain ⟨before, properties, coordinates, after, rfl, sameLength, read, exchanged⟩ :=
    hits?_exchange unidentified.rootAt unidentified.featureAt ((hits_eq_ok_iff writes _).1 held)
  refine ⟨before, hitOf properties coordinates, after, held, sameLength, ?_⟩
  generalize isHit : hitOf properties coordinates = hit at sound
  have accepted {tree : Written} {bytes : List UInt8} {found : List Hit}
      (writes : tree.WritesDocument bytes) (held : hits? tree = some found) :
      Postpass.read bytes = place found #[.featuresReturned found.length] #[] :=
    read_of_hits ((hits_eq_ok_iff writes found).2 held)
  have exchangedId (numeral : Numeral) : hits? (unidentified.document (.number numeral)) =
      numeral.int64?.map fun id => before ++ { hit with id } :: after := by
    rw [Unidentified.document, exchanged, properties?_plug_id unidentified.propertiesAt read,
      Option.map_map, ← isHit]
    rfl
  have exactly := readsIdsExactly_of_int64? accepted read_of_hits?_none exchangedId
  have given (id : ElementId) :
      place (before ++ { hit with id } :: after)
          #[.featuresReturned (before ++ { hit with id } :: after).length] #[] =
        identified before hit after id := by
    rw [identified, place_of_areSound (sound.setId id), ← warnings_setId hit id, ← warnings_append,
      ← warnings_append, ← nodes_setId, ← nodes_append, ← nodes_append, List.append_assoc,
      List.singleton_append, List.length_append, List.length_append]
    rfl
  rwa [funext given] at exactly

end Identifiers

end Postpass

namespace Source

/--
Wherever a document has an identifier, a reference or the identifier of a feature, a number is read
as exactly that number if it is a whole one of 64 bits, written without fraction and exponent and not
as minus zero; else the document is refused. So every printed identifier is read as it was.
-/
theorem ids_exact :
    (∀ (surroundings : Overpass.Surroundings) (sample : Written) (bytes : List UInt8)
      (elements : List Element), surroundings.element.IsAt 1 →
        (surroundings.document "id" sample).WritesDocument bytes →
        overpass (.ok bytes) = .ok elements →
        ∃ before element after, elements = before ++ element :: after ∧
          before.length = surroundings.front.length ∧
          ReadsIdsExactly Overpass.reading (surroundings.document "id") fun id =>
            ⟨[], .ok (before ++ { element with id } :: after)⟩) ∧
    (∀ (surroundings : Overpass.Surroundings) (front back : List Written) (sample : Written)
      (bytes : List UInt8) (elements : List Element), surroundings.element.IsAt 4 →
        (surroundings.document "nodes" (.array (front ++ sample :: back))).WritesDocument bytes →
        overpass (.ok bytes) = .ok elements →
        ∃ before element after earlier old later lat lon,
          elements = before ++ element :: after ∧
          before.length = surroundings.front.length ∧ earlier.length = front.length ∧
          element = Overpass.referring element lat lon (earlier ++ old :: later) ∧
          ReadsIdsExactly Overpass.reading
            (fun tree => surroundings.document "nodes" (.array (front ++ tree :: back))) fun id =>
              ⟨[], .ok (before ++
                Overpass.referring element lat lon (earlier ++ id :: later) :: after)⟩) ∧
    (∀ (unidentified : Postpass.Unidentified) (sample : Written) (bytes : List UInt8)
      (elements : List Element), (unidentified.document sample).WritesDocument bytes →
        (Postpass.read bytes).result = .ok elements →
        ∃ before hit after, Postpass.hits bytes = .ok (before ++ hit :: after) ∧
          before.length = unidentified.front.length ∧
          ReadsIdsExactly Postpass.read unidentified.document
            (Postpass.identified before hit after)) ∧
    (∀ id : ElementId, ∃ numeral : Numeral,
      numeral.bytes = Text.bytes (Json.ofId id).compact ∧
        (∀ depth, (Json.ofId id).prettyPieces depth = [(Json.ofId id).compact]) ∧
        numeral.IsId ∧ numeral.value = id.toInt) ∧
    ∀ records, ∃ elements,
      overpass (.ok (Text.bytes (Record.document records))) = .ok elements ∧
        elements.map Element.id = records.map Record.id := by
  refine ⟨?_, ?_, ?_, ?_, ?_⟩
  · intro surroundings sample bytes elements isAt writes succeeded
    exact Overpass.readsIdsExactly_id surroundings isAt writes succeeded
  · intro surroundings front back sample bytes elements isAt writes succeeded
    exact Overpass.readsIdsExactly_reference surroundings isAt writes succeeded
  · intro unidentified sample bytes elements writes succeeded
    exact Postpass.readsIdsExactly_osmId unidentified writes succeeded
  · intro id
    refine ⟨.ofInt id.toInt, ?_, ?_, Numeral.isId_ofInt id⟩
    · rw [Numeral.bytes_ofInt, Json.ofId, compact, Number.text]
    · intro depth
      rw [Json.ofId, prettyPieces, compact]
  · intro records
    refine ⟨_, Record.overpass_document_reread records, ?_⟩
    rw [List.map_map]
    rfl

section Limits

/-- The largest id is read, and the next integer is refused. -/
theorem read_limits {read : List UInt8 → Reading} {document : Written → Written}
    {result : ElementId → Reading} {bytes : Int → List UInt8}
    (exactly : ReadsIdsExactly read document result)
    (writes : ∀ id, (document (.number (.ofInt id))).WritesDocument (bytes id)) :
    read (bytes 9223372036854775807) = result Int64.maxValue ∧
      ∃ error, read (bytes 9223372036854775808) = ⟨[], .error (.json error)⟩ := by
  have largest : Int64.maxValue.toInt = 9223372036854775807 := rfl
  constructor
  · obtain ⟨isId, value⟩ := Numeral.isId_ofInt Int64.maxValue
    obtain ⟨id, isNumber, read⟩ := exactly.accepts (writes _) isId
    obtain rfl : id = Int64.maxValue := by
      rw [value] at isNumber
      exact Int64.toInt_inj.1 (by exact_mod_cast isNumber)
    exact read
  · have tooLarge : ¬ (Numeral.ofInt 9223372036854775808).IsId := by
      intro isId
      obtain ⟨_, _, _, below⟩ := Numeral.isId_iff.1 isId
      rw [Numeral.toInt_ofInt, largest] at below
      omega
    exact exactly.refuses (writes _) tooLarge

/-- This is a node of which nothing is known but its identifier. -/
def bareNode (id : ElementId) : Element := ⟨.node, id, .empty, .absent⟩

def extractJson (fields : List (String × Json)) : Json :=
  .object [("elements", .array [.object fields])]

def nodeJson (id : Int) : Json :=
  extractJson [("type", .string "node"), ("id", .number (.integer id))]

def wayJson (reference : Int) : Json :=
  extractJson [("type", .string "way"), ("id", .number (.integer 7)),
    ("nodes", .array [.number (.integer reference)])]

def answerJson (id : Int) : Json :=
  Postpass.answerJson [.object [("type", .string "Feature"),
    ("properties", .object [("osm_id", .number (.integer id)), ("tags", .null)]),
    ("geometry", .null)]]

def nodeSurroundings : Overpass.Surroundings where
  root := .object [] []
  front := []
  back := []
  element := .object [("type", .string "node")] []
  rootAt := trivial

def waySurroundings : Overpass.Surroundings where
  root := .object [] []
  front := []
  back := []
  element := .object [("type", .string "way"), ("id", .number (.ofInt 7))] []
  rootAt := trivial

def unidentified : Postpass.Unidentified where
  root := .object [("type", .string "FeatureCollection")] []
  front := []
  back := []
  feature := .object [("type", .string "Feature")] [("geometry", .null)]
  properties := .object [] [("tags", .null)]
  rootAt := trivial
  featureAt := trivial
  propertiesAt := trivial

theorem extractJson_writesDocument {fields : List (String × Json)}
    {trees : List (String × Written)}
    (each : List.Forall₂ (fun field tree => field.1 = tree.1 ∧ Prints field.2 tree.2)
      fields trees) :
    (Written.object [("elements", .array [.object trees])]).WritesDocument
      (Text.bytes (extractJson fields).compact) := by
  have root : Prints (extractJson fields) (.object [("elements", .array [.object trees])]) :=
    prints_object (.cons ⟨rfl, prints_array (.cons (prints_object each) .nil)⟩ .nil)
  exact root.writesDocument

theorem nodeSurroundings_writesDocument (id : Int) :
    (nodeSurroundings.document "id" (.number (.ofInt id))).WritesDocument
      (Text.bytes (nodeJson id).compact) :=
  extractJson_writesDocument
    (.cons ⟨rfl, prints_string "node"⟩ (.cons ⟨rfl, prints_integer id⟩ .nil))

theorem waySurroundings_writesDocument (reference : Int) :
    (waySurroundings.document "nodes" (.array [.number (.ofInt reference)])).WritesDocument
      (Text.bytes (wayJson reference).compact) :=
  extractJson_writesDocument
    (.cons ⟨rfl, prints_string "way"⟩ (.cons ⟨rfl, prints_integer 7⟩
      (.cons ⟨rfl, prints_array (.cons (prints_integer reference) .nil)⟩ .nil)))

theorem unidentified_writesDocument (id : Int) :
    (unidentified.document (.number (.ofInt id))).WritesDocument
      (Text.bytes (answerJson id).compact) := by
  have properties : Prints (.object [("osm_id", .number (.integer id)), ("tags", .null)])
      (.object [("osm_id", .number (.ofInt id)), ("tags", .null)]) :=
    prints_object (.cons ⟨rfl, prints_integer id⟩ (.cons ⟨rfl, prints_null⟩ .nil))
  apply Postpass.writesDocument_plainAnswer
  exact .cons (prints_object (.cons ⟨rfl, prints_string "Feature"⟩ (.cons ⟨rfl, properties⟩
    (.cons ⟨rfl, prints_null⟩ .nil)))) .nil

theorem overpass_nodeJson :
    overpass (.ok (Text.bytes (nodeJson 0).compact)) = .ok [bareNode 0] := by
  have kind : Overpass.kind? (.string "node") = some .node := rfl
  have idRead : Written.int64? (.number (.ofInt 0)) = some 0 := Numeral.int64?_ofInt 0
  have held : Overpass.elements? (nodeSurroundings.document "id" (.number (.ofInt 0))) =
      some [bareNode 0] := by
    simp [nodeSurroundings, Overpass.Surroundings.document, Frame.plug, Overpass.elements?, record?,
      Overpass.elementsOfMembers?, Overpass.element?, Overpass.elementOfMembers?, field?, listOf?,
      kind, idRead, bareNode, Overpass.described, Overpass.placeOf]
  exact congrArg Reading.result
    (Overpass.reading_of_elements? (nodeSurroundings_writesDocument 0) held)

theorem overpass_wayJson :
    overpass (.ok (Text.bytes (wayJson 0).compact)) = .ok [.way 7 [0] .empty] := by
  have kind : Overpass.kind? (.string "way") = some .way := rfl
  have idRead : Written.int64? (.number (.ofInt 7)) = some 7 := Numeral.int64?_ofInt 7
  have referenceRead : Written.int64? (.number (.ofInt 0)) = some 0 := Numeral.int64?_ofInt 0
  have referencesRead : Overpass.references? (.array [.number (.ofInt 0)]) = some (some [0]) := by
    change ((listOf? int64? (.array [.number (.ofInt 0)])).map some) = _
    simp [listOf?, referenceRead]
  have held : Overpass.elements? (waySurroundings.document "nodes" (.array [.number (.ofInt 0)])) =
      some [.way 7 [0] .empty] := by
    simp [waySurroundings, Overpass.Surroundings.document, Frame.plug, Overpass.elements?, record?,
      Overpass.elementsOfMembers?, Overpass.element?, Overpass.elementOfMembers?, field?, listOf?,
      kind, idRead, referencesRead, Element.way, Overpass.described, Overpass.placeOf]
  exact congrArg Reading.result
    (Overpass.reading_of_elements? (waySurroundings_writesDocument 0) held)

theorem hits_answerJson :
    Postpass.hits (Text.bytes (answerJson 0).compact) = .ok [⟨0, none, []⟩] := by
  have same : unidentified.document (.number (.ofInt 0)) =
      Postpass.plainAnswer [Postpass.plainFeature 0 .null .null] := rfl
  have held : Postpass.hits? (unidentified.document (.number (.ofInt 0))) =
      some [⟨0, none, []⟩] := by
    rw [same, Postpass.hits?_plainAnswer, List.mapM_cons, Postpass.hit?_plainFeature]
    rfl
  exact (Postpass.hits_eq_ok_iff (unidentified_writesDocument 0) _).2 held

/--
The largest identifier is read where an element, a way or a feature may have it, and the number
behind it is refused.
-/
theorem ids_exact_largest :
    (overpass (.ok (Text.bytes (nodeJson 9223372036854775807).compact)) =
        .ok [bareNode Int64.maxValue] ∧
      ∃ error, overpass (.ok (Text.bytes (nodeJson 9223372036854775808).compact)) =
        .error (.json error)) ∧
    (overpass (.ok (Text.bytes (wayJson 9223372036854775807).compact)) =
        .ok [.way 7 [Int64.maxValue] .empty] ∧
      ∃ error, overpass (.ok (Text.bytes (wayJson 9223372036854775808).compact)) =
        .error (.json error)) ∧
    Postpass.read (Text.bytes (answerJson 9223372036854775807).compact) =
        ⟨[.featuresReturned 1, .featureSkipped Int64.maxValue], .ok []⟩ ∧
      ∃ error, Postpass.read (Text.bytes (answerJson 9223372036854775808).compact) =
        ⟨[], .error (.json error)⟩ := by
  obtain ⟨ofElement, ofReference, ofFeature, _⟩ := ids_exact
  refine ⟨?_, ?_, ?_⟩
  · obtain ⟨before, element, after, same, sameLength, exactly⟩ := ofElement nodeSurroundings _ _ _
      trivial (nodeSurroundings_writesDocument 0) overpass_nodeJson
    obtain rfl : before = [] := List.length_eq_zero_iff.1 sameLength
    cases same
    obtain ⟨read, error, refused⟩ := read_limits exactly nodeSurroundings_writesDocument
    exact ⟨congrArg Reading.result read, error, congrArg Reading.result refused⟩
  · obtain ⟨before, element, after, earlier, old, later, lat, lon, same, sameLength, sameCount,
      placed, exactly⟩ := ofReference waySurroundings [] [] _ _ _ trivial
        (waySurroundings_writesDocument 0) overpass_wayJson
    obtain rfl : before = [] := List.length_eq_zero_iff.1 sameLength
    obtain rfl : earlier = [] := List.length_eq_zero_iff.1 sameCount
    cases same
    obtain ⟨read, error, refused⟩ := read_limits exactly waySurroundings_writesDocument
    obtain ⟨references, elsewhere⟩ := Overpass.referring_way placed
    cases references
    rw [elsewhere] at read
    exact ⟨congrArg Reading.result read, error, congrArg Reading.result refused⟩
  · have readable : (Postpass.read (Text.bytes (answerJson 0).compact)).result = .ok [] := by
      rw [Postpass.read_of_hits hits_answerJson]
      rfl
    obtain ⟨before, hit, after, held, sameLength, exactly⟩ := ofFeature unidentified _ _ _
      (unidentified_writesDocument 0) readable
    obtain rfl : before = [] := List.length_eq_zero_iff.1 sameLength
    rw [hits_answerJson] at held
    cases held
    exact read_limits exactly unidentified_writesDocument

end Limits

end Source

end LightList
