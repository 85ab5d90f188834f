/-
This file says which records of an Overpass extract lie on a finite position.

Every coordinate that is read is finite. A mean is finite when the sum is that it is made of, and the
sum of small coordinates always is. A coordinate that is not finite is written as null, so its record
is read again as a node without a position.
-/

import LightList.Proofs.Decimal.FloatSums
import LightList.Proofs.Json.FiniteNumbers
import LightList.Proofs.PointIndexEntries
import LightList.Proofs.ReductionTwice

namespace LightList

open Json Json.Reader

structure Position.IsFinite (position : Position) : Prop where
  lon : position.lon.isFinite = true
  lat : position.lat.isFinite = true

/-- Its own position, if it has one, is finite. -/
def Element.HasFinitePoint (element : Element) : Prop :=
  ∀ position ∈ element.point?, position.IsFinite

namespace Overpass

/-- The coordinates met so far are finite. -/
structure Draft.IsFinite (draft : Draft) : Prop where
  lat : ∀ found ∈ draft.lat, ∀ value ∈ found, value.isFinite = true
  lon : ∀ found ∈ draft.lon, ∀ value ∈ found, value.isFinite = true

/-- Every field keeps the coordinates that were read finite. -/
theorem field_gives {draft : Draft} (finite : draft.IsFinite) (key : String) :
    Gives (draft.field key) Draft.IsFinite := by
  have coordinate := orNull_gives float_gives
  unfold Draft.field
  split
  · exact .after fun _ => .pure ⟨finite.lat, finite.lon⟩
  · exact .after fun _ => .pure ⟨finite.lat, finite.lon⟩
  · exact (once_gives _ _ coordinate).bind fun lat found => .pure ⟨found, finite.lon⟩
  · exact (once_gives _ _ coordinate).bind fun lon found => .pure ⟨finite.lat, found⟩
  · exact .after fun _ => .pure ⟨finite.lat, finite.lon⟩
  · exact .after fun _ => .pure ⟨finite.lat, finite.lon⟩
  · exact .after fun _ => .pure finite

/-- An element is placed by coordinates that were read, so its point is finite. -/
theorem hasFinitePoint_elementOf {lat lon : Option Float}
    (latFinite : ∀ value ∈ lat, value.isFinite = true)
    (lonFinite : ∀ value ∈ lon, value.isFinite = true) (kind : Kind) (id : ElementId)
    (nodes : Option (List ElementId)) (tags : Option Tags) :
    (elementOf kind id lat lon nodes tags).HasFinitePoint := by
  intro position isPoint
  cases lat with
  | none => cases lon <;> cases kind <;> cases nodes <;> cases isPoint
  | some lat =>
      cases lon with
      | none => cases kind <;> cases nodes <;> cases isPoint
      | some lon =>
          cases isPoint
          exact ⟨lonFinite lon rfl, latFinite lat rfl⟩

theorem finish_gives {draft : Draft} (finite : draft.IsFinite) :
    Gives draft.finish Element.HasFinitePoint := by
  have joined {found : Option (Option Float)}
      (each : ∀ value ∈ found, ∀ float ∈ value, float.isFinite = true) :
      ∀ float ∈ found.getD none, float.isFinite = true := by
    cases found with
    | none => exact fun float member => by cases member
    | some value => exact each value rfl
  refine .after fun kind => .after fun id => .pure ?_
  exact hasFinitePoint_elementOf (joined finite.lat) (joined finite.lon) _ _ _ _

theorem elementReader_gives : Gives elementReader Element.HasFinitePoint := by
  have coordinate := orNull_gives float_gives
  apply record_gives
  · have empty : Draft.empty.IsFinite := by
      constructor
      · exact fun found member => by cases member
      · exact fun found member => by cases member
    exact (members_gives (fun draft key finite => field_gives finite key) empty).bind
      fun draft finite => finish_gives finite
  · refine .after fun kind => .after fun id => ?_
    apply (fieldAt_gives _ _ _ coordinate).bind
    intro lat latFinite
    apply (fieldAt_gives _ _ _ coordinate).bind
    intro lon lonFinite
    refine .after fun nodes => .after fun tags => .pure ?_
    exact hasFinitePoint_elementOf latFinite lonFinite _ _ _ _

theorem rootReader_gives :
    Gives rootReader fun elements => ∀ element ∈ elements, element.HasFinitePoint := by
  have list := listOf_gives elementReader_gives
  apply record_gives
  · have keeps (earlier : Option (List Element)) (key : String)
        (finite : ∀ elements ∈ earlier, ∀ element ∈ elements, element.HasFinitePoint) :
        Gives (rootField earlier key) fun found =>
          ∀ elements ∈ found, ∀ element ∈ elements, element.HasFinitePoint := by
      unfold rootField
      split
      · exact once_gives _ _ list
      · exact .after fun _ => .pure finite
    exact (members_gives keeps fun elements member => by cases member).bind
      fun found finite => required_gives _ finite
  · exact fieldAt_gives _ _ _ list

end Overpass

/-- No coordinate of an accepted document is an infinity. -/
theorem Source.hasFinitePoint_of_overpass {bytes : List UInt8} {elements : List Element}
    (succeeded : overpass (.ok bytes) = .ok elements) :
    ∀ element ∈ elements, element.HasFinitePoint := by
  rw [overpass] at succeeded
  cases read : Overpass.read bytes with
  | error error =>
      rw [read] at succeeded
      cases succeeded
  | ok found =>
      rw [read] at succeeded
      cases succeeded
      exact document_gives Overpass.rootReader_gives read

namespace Position

/-- Each coordinate is summed on its own. -/
theorem sum_eq (positions : List Position) :
    sum positions = ⟨(positions.map lon).foldl (· + ·) 0, (positions.map lat).foldl (· + ·) 0⟩ := by
  rw [List.foldl_map, List.foldl_map, sum]
  suffices folded : ∀ start : Position, positions.foldl add start =
      ⟨positions.foldl (fun total position => total + position.lon) start.lon,
        positions.foldl (fun total position => total + position.lat) start.lat⟩ from folded zero
  induction positions with
  | nil => exact fun _ => rfl
  | cons position rest inductionHypothesis => exact fun start => inductionHypothesis (add start position)

/-- The mean is finite exactly if the sum is: no division makes it so. -/
theorem isFinite_mean? {positions : List Position} {mean : Position}
    (found : mean? positions = some mean) :
    mean.lon.isFinite = (sum positions).lon.isFinite ∧
      mean.lat.isFinite = (sum positions).lat.isFinite := by
  cases positions with
  | nil => cases found
  | cons position rest =>
      cases found
      have some : (position :: rest).length ≠ 0 := Nat.succ_ne_zero _
      exact ⟨Decimal.isFinite_div_ofNat _ some, Decimal.isFinite_div_ofNat _ some⟩

/-- The coordinates are so small that adding one of them does not lead to an infinity. -/
structure IsSmall (position : Position) : Prop where
  lon : Decimal.size position.lon ≤ 2 ^ (970 : ℤ)
  lat : Decimal.size position.lat ≤ 2 ^ (970 : ℤ)

/-- Small coordinates have a finite sum, however many there are. -/
theorem isFinite_sum {positions : List Position}
    (small : ∀ position ∈ positions, position.IsFinite ∧ position.IsSmall) :
    (sum positions).IsFinite := by
  rw [sum_eq]
  constructor
  · apply Decimal.isFinite_sum
    intro value member
    obtain ⟨position, isPosition, rfl⟩ := List.mem_map.1 member
    exact ⟨(small position isPosition).1.lon, (small position isPosition).2.lon⟩
  · apply Decimal.isFinite_sum
    intro value member
    obtain ⟨position, isPosition, rfl⟩ := List.mem_map.1 member
    exact ⟨(small position isPosition).1.lat, (small position isPosition).2.lat⟩

end Position

/-- The index has nothing but direct positions of the extract. -/
theorem PointIndex.exists_of_get?_ofElements {elements : List Element} {id : ElementId}
    {position : Position} (found : (ofElements elements).get? id = some position) :
    ∃ element ∈ elements, element.point? = some position := by
  rw [get?_ofElements] at found
  obtain ⟨front, back, same, _⟩ := List.lookup_eq_some_iff.1 found
  have member : (id, position) ∈ elements.filterMap Element.indexEntry? := by
    rw [← List.mem_reverse, same]
    exact List.mem_append_right _ List.mem_cons_self
  obtain ⟨element, isElement, entry⟩ := List.mem_filterMap.1 member
  unfold Element.indexEntry? at entry
  split at entry
  · obtain ⟨_, isPoint, same⟩ := Option.map_eq_some_iff.1 entry
    cases same
    exact ⟨element, isElement, isPoint⟩
  · cases entry

/-- This is the position that a place is made of: its own, or the sum along its references. -/
def Geometry.total (geometry : Geometry) (index : PointIndex) : Position :=
  match geometry with
  | .point position => position
  | .path references => Position.sum (index.positionsOf references)
  | .absent => .zero

namespace Geometry

variable {geometry : Geometry} {index : PointIndex} {position : Position}

/-- A place is finite exactly if the total of its coordinates is. -/
theorem isFinite_place? (found : geometry.place? index = some position) :
    position.lon.isFinite = (geometry.total index).lon.isFinite ∧
      position.lat.isFinite = (geometry.total index).lat.isFinite := by
  cases geometry with
  | point own =>
      cases found
      exact ⟨rfl, rfl⟩
  | path references => exact Position.isFinite_mean? found
  | absent => cases found

end Geometry

/-- The power of two of the last bit decides whether a coordinate is small. -/
theorem Decimal.size_le_of_power {value : Float} (low : (binaryParts (magnitudeBits value)).2 ≤ 917) :
    size value ≤ 2 ^ (970 : ℤ) :=
  calc
    size value ≤ 2 ^ (53 + (binaryParts (magnitudeBits value)).2) :=
      (lt_of_fits (isMantissa_binaryParts _).fits _).le
    _ ≤ 2 ^ (970 : ℤ) := zpow_le_zpow_right₀ (by norm_num) (by omega)

/-- Small coordinates give finite sums, however many references there are. -/
theorem Element.isFinite_total {elements : List Element}
    (small : ∀ element ∈ elements, ∀ position ∈ element.point?,
      position.IsFinite ∧ position.IsSmall)
    {element : Element} (member : element ∈ elements) :
    (element.geometry.total (.ofElements elements)).IsFinite := by
  unfold Geometry.total
  split
  · next position isPoint =>
      have own : element.point? = some position := by
        rw [point?, isPoint]
      exact (small element member position own).1
  · apply Position.isFinite_sum
    intro position isMember
    obtain ⟨id, _, found⟩ := List.mem_filterMap.1 isMember
    obtain ⟨other, isOther, isPoint⟩ := PointIndex.exists_of_get?_ofElements found
    exact small other isOther position isPoint
  · have isZero := Decimal.isSized_toFloat (by decide : 0 < 2 ^ 53)
    exact ⟨isZero.isFinite, isZero.isFinite⟩

section Rereading

namespace Record

/-- This is the node that a record is read as again; without both coordinates it has no position. -/
def rereadElement (record : Record) : Element :=
  Overpass.described .node record.id (LightList.reread? record.position.lat)
    (LightList.reread? record.position.lon) none (some record.tags)

/-- A reduced file is always read again, with null where a coordinate is no number. -/
theorem overpass_document_reread (records : List Record) :
    Source.overpass (.ok (document records).toUTF8.toList) = .ok (records.map rereadElement) := by
  apply overpass_of_isReadAs
  rw [List.forall₂_map_right_iff, List.forall₂_same]
  intro record _
  exact isReadAs_of_coordinates (Json.exists_prints_float _) (Json.exists_prints_float _)

/-- What is read again has a place exactly if both coordinates were finite. -/
theorem isSome_place?_rereadElement (record : Record) (index : PointIndex) :
    (record.rereadElement.place? index).isSome = true ↔ record.position.IsFinite := by
  have lat := isSome_reread? record.position.lat
  have lon := isSome_reread? record.position.lon
  have both : record.position.IsFinite ↔
      record.position.lat.isFinite = true ∧ record.position.lon.isFinite = true :=
    ⟨fun finite => ⟨finite.lat, finite.lon⟩, fun finite => ⟨finite.2, finite.1⟩⟩
  rw [both, ← lat, ← lon, rereadElement]
  cases LightList.reread? record.position.lat <;> cases LightList.reread? record.position.lon <;>
    simp [Overpass.described, Overpass.placeOf, Element.place?, Geometry.place?]

/-- A finite coordinate is written as a number and any other as null, which takes the place away. -/
structure IsWritten (record : Record) : Prop where
  number : ∀ value ∈ record.position.coordinates, value.isFinite = true →
    ∃ numeral : Numeral, numeral.bytes = Text.bytes (Json.ofFloat value).compact
  null : ∀ value ∈ record.position.coordinates, value.isFinite = false →
    (Json.ofFloat value).compact = "null"
  placed : ∀ index, (record.rereadElement.place? index).isSome = true ↔ record.position.IsFinite

/-- Every number of a record is written, and null stands for the others. -/
theorem isWritten (record : Record) : record.IsWritten where
  number _ _ := Json.exists_numeral_ofFloat
  null _ _ := Json.compact_ofFloat_of_not
  placed := record.isSome_place?_rereadElement

end Record

end Rereading

namespace Reduction

/--
A coordinate of a record is finite exactly if the one is that it was read as, or the sum from which
the mean was taken; so all are where the coordinates of the extract are small. The written records are
always read again, and those come back with a place that have a finite position.
-/
theorem recordsOf_overpass {bytes : List UInt8} {elements : List Element}
    (succeeded : Source.overpass (.ok bytes) = .ok elements) :
    let index := PointIndex.ofElements elements
    let records := recordsOf elements index
    (∀ record ∈ records, ∃ element ∈ elements, element.record? index = some record ∧
      record.position.lon.isFinite = (element.geometry.total index).lon.isFinite ∧
      record.position.lat.isFinite = (element.geometry.total index).lat.isFinite ∧
      (element.geometry.isPath = false → record.position.IsFinite)) ∧
    ((∀ element ∈ elements, ∀ position ∈ element.point?, position.IsSmall) →
      ∀ record ∈ records, record.position.IsFinite) ∧
    Source.overpass (.ok (Record.document records).toUTF8.toList) =
      .ok (records.map Record.rereadElement) ∧
    ∀ record ∈ records, record.IsWritten := by
  intro index records
  have finitePoint := Source.hasFinitePoint_of_overpass succeeded
  have source (record : Record) (member : record ∈ records) :
      ∃ element ∈ elements, element.record? index = some record ∧
        record.position.lon.isFinite = (element.geometry.total index).lon.isFinite ∧
        record.position.lat.isFinite = (element.geometry.total index).lat.isFinite ∧
        element.geometry.place? index = some record.position := by
    change record ∈ recordsOf elements index at member
    rw [recordsOf, records_ofElements, List.mem_mergeSort, List.mem_filterMap] at member
    obtain ⟨element, isElement, found⟩ := member
    obtain ⟨_, position, placed, rfl⟩ := Element.record?_eq_some_iff.1 found
    have finite := Geometry.isFinite_place? placed
    exact ⟨element, isElement, found, finite.1, finite.2, placed⟩
  refine ⟨?_, ?_, Record.overpass_document_reread records, fun record _ => record.isWritten⟩
  · intro record member
    obtain ⟨element, isElement, found, lon, lat, placed⟩ := source record member
    refine ⟨element, isElement, found, lon, lat, fun noPath => ?_⟩
    apply finitePoint element isElement
    cases shape : element.geometry with
    | point position =>
        rw [shape] at placed
        rw [Element.point?, shape]
        exact placed
    | path references =>
        rw [shape] at noPath
        cases noPath
    | absent =>
        rw [shape] at placed
        cases placed
  · intro small record member
    obtain ⟨element, isElement, _, lon, lat, _⟩ := source record member
    have finite := Element.isFinite_total (fun other isOther position isPoint =>
      ⟨finitePoint other isOther position isPoint, small other isOther position isPoint⟩) isElement
    exact ⟨lon.trans finite.lon, lat.trans finite.lat⟩

/-- A way lies on one node twice. -/
def moleText : String :=
  "\x7b\"elements\":[\x7b\"type\":\"node\",\"id\":1,\"lat\":1,\"lon\":-2.5\x7d," ++
    "\x7b\"type\":\"way\",\"id\":3,\"nodes\":[1,1],\"tags\":\x7b\"name\":\"Mole\"\x7d\x7d]\x7d"

def mole : List Element :=
  [.node 1 ⟨-2.5, 1⟩ .empty, .way 3 [1, 1] (.ofList [("name", "Mole")])]

/-- What the reader takes is what the source gives. -/
theorem overpass_of_toOption {text : String} {elements : List Element}
    (read : (Overpass.read (Text.bytes text)).toOption = some elements) :
    Source.overpass (.ok (Text.bytes text)) = .ok elements := by
  cases result : Overpass.read (Text.bytes text) with
  | error error =>
      rw [result] at read
      cases read
  | ok found =>
      rw [result] at read
      rw [Source.overpass, result, ← Option.some.inj read]
      rfl

/-- The way of the mole meets its only node twice, and its record is read again. -/
theorem recordsOf_overpass_mole :
    let records := recordsOf mole (.ofElements mole)
    Source.overpass (.ok (Text.bytes moleText)) = .ok mole ∧
      (∀ element ∈ mole, ∀ position ∈ element.point?, position.IsSmall) ∧
      (∀ record ∈ records, record.position.IsFinite) ∧
      Source.overpass (.ok (Record.document records).toUTF8.toList) =
        .ok (records.map Record.rereadElement) := by
  intro records
  have succeeded : Source.overpass (.ok (Text.bytes moleText)) = .ok mole :=
    overpass_of_toOption (by decide +kernel)
  have small : ∀ element ∈ mole, ∀ position ∈ element.point?, position.IsSmall := by
    have powers : ∀ element ∈ mole, ∀ position ∈ element.point?, ∀ value ∈ position.coordinates,
        (Decimal.binaryParts (Decimal.magnitudeBits value)).2 ≤ 917 := by
      decide +kernel
    intro element member position isPoint
    have each := powers element member position isPoint
    exact ⟨Decimal.size_le_of_power (each _ (List.mem_cons_of_mem _ List.mem_cons_self)),
      Decimal.size_le_of_power (each _ List.mem_cons_self)⟩
  obtain ⟨_, finite, written, _⟩ := recordsOf_overpass succeeded
  exact ⟨succeeded, small, finite small, written⟩

/-- The longitude is counted twice, and the sum is larger than all floats. -/
def strayText : String :=
  "\x7b\"elements\":[\x7b\"type\":\"node\",\"id\":1,\"lat\":0,\"lon\":1.7e308\x7d," ++
    "\x7b\"type\":\"way\",\"id\":3,\"nodes\":[1,1],\"tags\":\x7b\"name\":\"Pier\"\x7d\x7d]\x7d"

def stray : List Element :=
  [.node 1 ⟨1.7e308, 0⟩ .empty, .way 3 [1, 1] (.ofList [("name", "Pier")])]

/-- So the way has a place, and its longitude is no finite float. -/
theorem recordsOf_stray : ∃ position, recordsOf stray (.ofElements stray) =
    [⟨3, position, .ofList [("name", "Pier")]⟩] ∧ position.lon.isFinite = false := by
  obtain ⟨index, isIndex⟩ : ∃ index, index = PointIndex.ofElements stray := ⟨_, rfl⟩
  have found : index.get? 1 = some ⟨1.7e308, 0⟩ := by
    rw [isIndex, PointIndex.get?_ofElements]
    rfl
  have positions : index.positionsOf [1, 1] = [⟨1.7e308, 0⟩, ⟨1.7e308, 0⟩] := by
    rw [PointIndex.positionsOf, List.filterMap_cons_some found, List.filterMap_cons_some found,
      List.filterMap_nil]
  obtain ⟨mean, isMean⟩ : ∃ mean, Position.mean? (index.positionsOf [1, 1]) = some mean := by
    rw [positions]
    exact ⟨_, rfl⟩
  have infinite : mean.lon.isFinite = false := by
    rw [(Position.isFinite_mean? isMean).1, positions]
    decide +kernel
  have untagged : (Element.node 1 ⟨1.7e308, 0⟩ .empty).record? index = none :=
    if_neg Bool.false_ne_true
  have tagged : (Element.way 3 [1, 1] (.ofList [("name", "Pier")])).record? index =
      some ⟨3, mean, .ofList [("name", "Pier")]⟩ :=
    Element.record?_eq_some_iff.2 ⟨rfl, mean, isMean, rfl⟩
  refine ⟨mean, ?_, infinite⟩
  rw [← isIndex, recordsOf, records_ofElements, stray, List.filterMap_cons_none untagged,
    List.filterMap_cons_some tagged, List.filterMap_nil, List.mergeSort_singleton]

/-- The same large longitude twice has an infinite sum, which is written as null. -/
theorem recordsOf_overpass_stray :
    Source.overpass (.ok (Text.bytes strayText)) = .ok stray ∧
      ∃ record, recordsOf stray (.ofElements stray) = [record] ∧
        record.position.lon.isFinite = false ∧
        (Json.ofFloat record.position.lon).compact = "null" ∧
        Source.overpass (.ok (Record.document [record]).toUTF8.toList) =
          .ok [record.rereadElement] ∧
        ∀ index, record.rereadElement.place? index = none := by
  obtain ⟨position, records, infinite⟩ := recordsOf_stray
  refine ⟨overpass_of_toOption (by decide +kernel), _, records, infinite,
    Json.compact_ofFloat_of_not infinite, Record.overpass_document_reread _, ?_⟩
  intro index
  rw [← Option.not_isSome_iff_eq_none, Record.isSome_place?_rereadElement]
  intro finite
  rw [finite.lon] at infinite
  cases infinite

end Reduction

end LightList
