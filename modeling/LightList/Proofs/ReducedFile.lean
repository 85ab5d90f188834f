/-
This file shows that the written records are read back as nodes.
-/

import LightList.Proofs.Json.PrintedNumbers
import LightList.Proofs.OverpassFormat
import LightList.Proofs.TagLookup
import LightList.Record

namespace LightList

open Json Json.Written Text

/-- This is what is read from the text of a float; only finite floats have one. -/
def reread? (value : Float) : Option Float :=
  (Decimal.floatText? value).bind fun text =>
    (Reader.document Reader.float text.toUTF8.toList).toOption

/-- The text of a float must not be refused where a float is expected. -/
def isAccepted (value : Float) : Bool :=
  (Decimal.floatText? value).all fun text =>
    (Reader.document Reader.float text.toUTF8.toList).isOk

/-- A finite float that is accepted is read again. -/
theorem exists_reread {value : Float} (finite : value.isFinite = true)
    (accepted : isAccepted value = true) : ∃ read, reread? value = some read := by
  obtain ⟨text, printed⟩ : ∃ text, Decimal.floatText? value = some text := by
    rw [Decimal.floatText?, if_pos finite]
    exact ⟨_, rfl⟩
  rw [isAccepted, printed, Option.all_some] at accepted
  rw [reread?, printed, Option.bind_some]
  cases result : Reader.document Reader.float text.toUTF8.toList with
  | ok read => exact ⟨read, rfl⟩
  | error error =>
      rw [result] at accepted
      cases accepted

def Position.coordinates (position : Position) : List Float := [position.lat, position.lon]

/-- A numeral alone is a document. -/
theorem Json.Written.writesDocument_number {numeral : Numeral} {text : String}
    (same : numeral.bytes = bytes text) : (Written.number numeral).WritesDocument (bytes text) := by
  rw [← same]
  exact (Written.Writes.number numeral).writesDocument

/-- What is read again is what the numeral of the text is read as. -/
theorem exists_numeral_reread {value read : Float} (found : reread? value = some read) :
    ∃ numeral : Numeral, ¬ numeral.IsIntegral ∧ Prints (.ofFloat value) (.number numeral) ∧
      Reader.float? numeral = some read := by
  unfold reread? at found
  obtain ⟨text, printed, parsed⟩ := Option.bind_eq_some_iff.1 found
  obtain ⟨numeral, same, notIntegral⟩ := exists_numeral_floatText printed
  have writes := Written.writesDocument_number same
  refine ⟨numeral, notIntegral, prints_ofFloat printed same, ?_⟩
  change Written.float? (.number numeral) = some read
  apply (Reader.document_eq_ok_iff Reader.reads_float writes read).1
  change (Reader.document Reader.float (bytes text)).toOption = some read at parsed
  cases result : Reader.document Reader.float (bytes text) with
  | error error =>
      rw [result] at parsed
      cases parsed
  | ok value =>
      rw [result] at parsed
      exact congrArg Except.ok (Option.some.inj parsed)

/-- A coordinate that is read again is written as a numeral. -/
theorem exists_prints_coordinate {value read : Float} (found : reread? value = some read) :
    ∃ tree, Prints (.ofFloat value) tree ∧ orNull? float? tree = some (some read) := by
  obtain ⟨numeral, _, prints, valued⟩ := exists_numeral_reread found
  exact ⟨.number numeral, prints, congrArg (Option.map some) valued⟩

/-- The tags are printed as strings, and their keys are distinct. -/
theorem exists_prints_tags (tags : Tags) :
    ∃ tree, Prints tags.json tree ∧ orNull? tags? tree = some (some tags) := by
  have each (entries : List (String × String)) :
      (entries.map fun entry => (entry.1, Written.string entry.2)).mapM textMember? =
        some entries := by
    induction entries with
    | nil => rfl
    | cons entry rest inductionHypothesis =>
        rw [List.map_cons, List.mapM_cons, inductionHypothesis]
        rfl
  apply Exists.intro (Written.object (tags.entries.map fun entry => (entry.1, .string entry.2)))
  constructor
  · apply prints_object
    rw [List.forall₂_map_left_iff, List.forall₂_map_right_iff, List.forall₂_same]
    intro entry _
    exact ⟨rfl, prints_string entry.2⟩
  · have found := congrArg (Option.map fun pairs => Tags.ofList (Keyed.latest pairs))
      (each tags.entries)
    rw [Option.map_some, Tags.ofList_latest, Tags.ofList_entries] at found
    exact congrArg (Option.map some) found

namespace Record

/-- This is the node that a record is read as, if both its coordinates are. -/
def reread? (record : Record) : Option Element := do
  let lat ← LightList.reread? record.position.lat
  let lon ← LightList.reread? record.position.lon
  return .node record.id ⟨lon, lat⟩ record.tags

/-- A record with accepted coordinates is read again as an element. -/
theorem exists_element {record : Record}
    (finite : ∀ value ∈ record.position.coordinates, value.isFinite = true)
    (accepted : ∀ value ∈ record.position.coordinates, isAccepted value = true) :
    ∃ element, record.reread? = some element := by
  have reads (value : Float) (member : value ∈ record.position.coordinates) :=
    exists_reread (finite value member) (accepted value member)
  obtain ⟨lat, latRead⟩ := reads record.position.lat List.mem_cons_self
  obtain ⟨lon, lonRead⟩ :=
    reads record.position.lon (List.mem_cons_of_mem _ List.mem_cons_self)
  rw [reread?, latRead, lonRead]
  exact ⟨_, rfl⟩

/-- The record is printed as something that is read as the element. -/
def IsReadAs (record : Record) (element : Element) : Prop :=
  ∃ tree, Prints record.json tree ∧ Overpass.element? tree = some element

/-- The coordinates are read each on its own, and null is read as none. -/
theorem isReadAs_of_coordinates {record : Record} {lat lon : Option Float}
    (latPrints : ∃ tree, Prints (.ofFloat record.position.lat) tree ∧
      orNull? float? tree = some lat)
    (lonPrints : ∃ tree, Prints (.ofFloat record.position.lon) tree ∧
      orNull? float? tree = some lon) :
    record.IsReadAs (Overpass.described .node record.id lat lon none (some record.tags)) := by
  obtain ⟨idTree, printsId, idValue⟩ := exists_prints_ofId record.id
  obtain ⟨latTree, printsLat, latValue⟩ := latPrints
  obtain ⟨lonTree, printsLon, lonValue⟩ := lonPrints
  obtain ⟨tagsTree, printsTags, tagsValue⟩ := exists_prints_tags record.tags
  apply Exists.intro (Written.object [("type", .string "node"), ("id", idTree), ("lat", latTree),
    ("lon", lonTree), ("tags", tagsTree)])
  constructor
  · exact prints_object (.cons ⟨rfl, prints_string "node"⟩ (.cons ⟨rfl, printsId⟩
      (.cons ⟨rfl, printsLat⟩ (.cons ⟨rfl, printsLon⟩ (.cons ⟨rfl, printsTags⟩ .nil)))))
  · have kind : Overpass.kind? (.string "node") = some .node := rfl
    simp [Overpass.element?, record?, Overpass.elementOfMembers?, field?, kind, idValue, latValue,
      lonValue, tagsValue]

/-- What is read again has the id, the tags and the coordinates of its record. -/
theorem isReadAs_of_reread? {record : Record} {element : Element}
    (found : record.reread? = some element) : record.IsReadAs element := by
  unfold reread? at found
  obtain ⟨lat, latRead, found⟩ := Option.bind_eq_some_iff.1 found
  obtain ⟨lon, lonRead, found⟩ := Option.bind_eq_some_iff.1 found
  cases found
  exact isReadAs_of_coordinates (exists_prints_coordinate latRead)
    (exists_prints_coordinate lonRead)

section Documents

variable {records : List Record} {trees : List Written}

/-- A comma ends the line before each further record. -/
theorem bytes_lines (records : List Record) :
    (lines records).flatMap bytes =
      furtherBytes [lineFeed] (records.map fun record => bytes record.json.compact) := by
  have mark : bytes "," = [comma] := bytes_eq _
  have newline : bytes "\n" = [lineFeed] := bytes_eq _
  induction records with
  | nil => rfl
  | cons record rest inductionHypothesis =>
      simp [lines, mark, newline, inductionHypothesis, furtherBytes]

/-- The lines of a document are the items of its list. -/
theorem writes_lines
    (each : List.Forall₂ (fun record tree => Prints record.json tree) records trees) :
    WritesList Writes false trees ((lines records).flatMap bytes ++ [lineFeed]) := by
  have isGap : IsGap [lineFeed] := rfl
  rw [bytes_lines]
  apply writes_further isGap isGap
  rw [List.forall₂_map_right_iff]
  exact each.flip

/-- The lines stand in the one list of the document. -/
theorem writesDocument
    (each : List.Forall₂ (fun record tree => Prints record.json tree) records trees) :
    (Written.object [("elements", .array trees)]).WritesDocument (bytes (document records)) := by
  have opening : bytes "\x7b\"elements\":[\n" =
      openBrace :: (bytes (quoted "elements" ++ ":") ++ [openBracket, lineFeed]) := by
    rw [bytes_eq, bytes_eq]
    rfl
  have closing : bytes "]\x7d\n" = [closeBracket, closeBrace, lineFeed] := bytes_eq _
  have newline : bytes "\n" = [lineFeed] := bytes_eq _
  obtain ⟨inner, items, written⟩ : ∃ inner, WritesList Writes true trees inner ∧
      bytes (document records) = [] ++ ((openBrace ::
        (([] ++ ((bytes (quoted "elements" ++ ":") ++ (openBracket :: (inner ++ [closeBracket]))) ++
          [])) ++ [closeBrace])) ++ [lineFeed]) := by
    rw [document, bytes_join]
    cases each with
    | nil =>
        apply Exists.intro [lineFeed]
        apply And.intro (.done rfl)
        simp [documentPieces, opening, closing]
    | @cons record tree rest others prints further =>
        apply Exists.intro
          ([lineFeed] ++ (bytes record.json.compact ++ ((lines rest).flatMap bytes ++ [lineFeed])))
        apply And.intro (.first rfl prints (writes_lines further))
        simp [documentPieces, opening, closing, newline]
  rw [written]
  exact .around rfl (.object (.first rfl (writes_member "elements" (.array items)) (.done rfl))) rfl

end Documents

/-- The document is read as the elements that its records are read as. -/
theorem overpass_of_isReadAs {records : List Record} {elements : List Element}
    (read : List.Forall₂ IsReadAs records elements) :
    Source.overpass (.ok (document records).toUTF8.toList) = .ok elements := by
  obtain ⟨trees, printed, values⟩ := exists_mapM_of_forall₂ read
  have held : Overpass.elements? (.object [("elements", .array trees)]) = some elements := by
    simp [Overpass.elements?, record?, Overpass.elementsOfMembers?, field?, listOf?, values]
  have succeeded : Overpass.read (document records).toUTF8.toList = .ok elements :=
    (Overpass.read_eq_ok_iff (writesDocument printed) elements).2 held
  rw [Source.overpass, succeeded]
  rfl

/-- A document is read again record by record. -/
theorem exists_elements {records : List Record}
    (read : ∀ record ∈ records, ∃ element, record.reread? = some element) :
    ∃ elements, Source.overpass (.ok (document records).toUTF8.toList) = .ok elements ∧
      List.Forall₂ (fun record element => record.reread? = some element) records elements := by
  obtain ⟨elements, found⟩ := Json.exists_forall₂ read
  exact ⟨elements, overpass_of_isReadAs (found.imp fun _ _ => isReadAs_of_reread?), found⟩

/-- Reading what was written for the records gives one node for each, in their order. -/
theorem overpass_document (records : List Record)
    (finite : ∀ record ∈ records, ∀ value ∈ record.position.coordinates, value.isFinite = true)
    (accepted : ∀ record ∈ records, ∀ value ∈ record.position.coordinates,
      isAccepted value = true) :
    ∃ elements, Source.overpass (.ok (document records).toUTF8.toList) = .ok elements ∧
      List.Forall₂ (fun record element => record.reread? = some element) records elements :=
  exists_elements fun record member =>
    exists_element (finite record member) (accepted record member)

/-- Two records share an identifier, and their tags need escapes. -/
def escapedRecords : List Record :=
  [⟨Int64.minValue, ⟨-20.5, 10⟩, .ofList [("name", "a\"\\\n\x01é"), ("é", "")]⟩,
    ⟨Int64.minValue, ⟨1e300, 0.1⟩, .empty⟩]

/-- One of these tags has a quote, a backslash and control characters in its value. -/
theorem overpass_document_escaped :
    (∀ record ∈ escapedRecords, ∀ value ∈ record.position.coordinates,
      value.isFinite = true ∧ isAccepted value = true) ∧
    ∃ elements, Source.overpass (.ok (document escapedRecords).toUTF8.toList) = .ok elements ∧
      List.Forall₂ (fun record element => record.reread? = some element) escapedRecords elements := by
  have coordinates : ∀ record ∈ escapedRecords, ∀ value ∈ record.position.coordinates,
      value.isFinite = true ∧ isAccepted value = true := by
    decide +kernel
  apply And.intro coordinates
  apply overpass_document
  · intro record member value isCoordinate
    exact (coordinates record member value isCoordinate).1
  · intro record member value isCoordinate
    exact (coordinates record member value isCoordinate).2

end Record

end LightList
