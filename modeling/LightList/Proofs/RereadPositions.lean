/-
This file says how far the lights are moved when a reduced extract is written down and read again.

A coordinate comes back as the same float if the reader holds its digits and their power of ten. Any
other one may differ in the last bits, so a reduced extract need not be written as the same text again.
-/

import LightList.Proofs.ReductionTwice
import LightList.Proofs.RereadFloats

namespace LightList

namespace Record

/-- Nothing but the last bits of the coordinates differs. -/
structure IsMoved (record moved : Record) : Prop where
  id : moved.id = record.id
  tags : moved.tags = record.tags
  lon : Decimal.IsReread record.position.lon moved.position.lon
  lat : Decimal.IsReread record.position.lat moved.position.lat

/-- The reader holds the digits of both coordinates. -/
structure HoldsDigits (record : Record) : Prop where
  lon : Decimal.HoldsDigits record.position.lon
  lat : Decimal.HoldsDigits record.position.lat

/-- A record whose digits are held exactly is not moved. -/
theorem IsMoved.eq_of_holdsDigits {record moved : Record} (isMoved : record.IsMoved moved)
    (holds : record.HoldsDigits) : moved = record := by
  obtain ⟨id, ⟨lon, lat⟩, tags⟩ := record
  obtain ⟨_, ⟨_, _⟩, _⟩ := moved
  obtain rfl : _ = id := isMoved.id
  obtain rfl : _ = tags := isMoved.tags
  obtain rfl : _ = lon := isMoved.lon.exact holds.lon
  obtain rfl : _ = lat := isMoved.lat.exact holds.lat
  rfl

/-- A record with finite coordinates is read again, moved by a few units at most. -/
theorem exists_isMoved {record : Record} (lon : record.position.lon.isFinite = true)
    (lat : record.position.lat.isFinite = true) :
    ∃ moved : Record, record.reread? = some moved.element ∧ record.IsMoved moved := by
  obtain ⟨readLon, lonRead, isLon⟩ := Decimal.exists_isReread lon
  obtain ⟨readLat, latRead, isLat⟩ := Decimal.exists_isReread lat
  apply Exists.intro ⟨record.id, ⟨readLon, readLat⟩, record.tags⟩
  constructor
  · rw [reread?, latRead, lonRead]
    rfl
  · exact ⟨rfl, rfl, isLon, isLat⟩

/-- Each record is moved on its own. -/
theorem exists_areMoved {records : List Record}
    (finite : ∀ record ∈ records,
      record.position.lon.isFinite = true ∧ record.position.lat.isFinite = true) :
    ∃ moved : List Record,
      List.Forall₂ (fun record moved => record.reread? = some moved.element) records moved ∧
        List.Forall₂ IsMoved records moved := by
  induction records with
  | nil => exact ⟨[], .nil, .nil⟩
  | cons record rest inductionHypothesis =>
      obtain ⟨lon, lat⟩ := finite record List.mem_cons_self
      obtain ⟨first, found, isMoved⟩ := exists_isMoved lon lat
      obtain ⟨moved, reread, areMoved⟩ :=
        inductionHypothesis fun other member => finite other (List.mem_cons_of_mem record member)
      exact ⟨first :: moved, .cons found reread, .cons isMoved areMoved⟩

section Lists

variable {records moved : List Record}

/-- Records whose digits are held exactly are all read again as they were. -/
theorem eq_of_areMoved (areMoved : List.Forall₂ IsMoved records moved)
    (holds : ∀ record ∈ records, record.HoldsDigits) : moved = records := by
  induction areMoved with
  | nil => rfl
  | @cons record other rest others isMoved _ inductionHypothesis =>
      rw [isMoved.eq_of_holdsDigits (holds record List.mem_cons_self),
        inductionHypothesis fun other member => holds other (List.mem_cons_of_mem record member)]

/-- Moving keeps ids and tags. -/
theorem map_eq_of_areMoved (areMoved : List.Forall₂ IsMoved records moved) :
    moved.map (fun record => (record.id, record.tags)) =
      records.map fun record => (record.id, record.tags) := by
  induction areMoved with
  | nil => rfl
  | cons isMoved _ inductionHypothesis =>
      rw [List.map_cons, List.map_cons, isMoved.id, isMoved.tags, inductionHypothesis]

end Lists

/--
The written records are read as nodes in their order, each with its identifier, its tags and nearly
its position. If they come from a reduction, these nodes are reduced to what was read, and so to the
same text where the reader holds the digits of all coordinates.
-/
theorem overpass_document_moved (records : List Record)
    (finite : ∀ record ∈ records,
      record.position.lon.isFinite = true ∧ record.position.lat.isFinite = true) :
    ∃ moved : List Record,
      Source.overpass (.ok (document records).toUTF8.toList) = .ok (moved.map element) ∧
      List.Forall₂ IsMoved records moved ∧
      ∀ source index, records = Reduction.recordsOf source index → ∀ other,
        Reduction.recordsOf (moved.map element) other = moved ∧
          ((∀ record ∈ records, record.HoldsDigits) →
            document (Reduction.recordsOf (moved.map element) other) = document records) := by
  obtain ⟨moved, reread, areMoved⟩ := exists_areMoved finite
  have read : List.Forall₂ IsReadAs records (moved.map element) :=
    List.forall₂_map_right_iff.2 (reread.imp fun _ _ => isReadAs_of_reread?)
  refine ⟨moved, overpass_of_isReadAs read, areMoved, ?_⟩
  intro source index isReduced other
  have areReduced : AreReduced records := isReduced ▸ Reduction.areReduced_records source index
  have again := ((areReduced.congr (map_eq_of_areMoved areMoved)).ofElements_eq other).1
  constructor
  · exact again
  · intro holds
    rw [Reduction.recordsOf, again, eq_of_areMoved areMoved holds]

/-- There are zeros of both signs, sixteen digits, and the least and the largest power of ten. -/
def harbour : List Element :=
  [.node 7 ⟨2.289999961853027, -0.0⟩ (.ofList [("name", "Outer"), ("source", "survey")]),
    .node 3 ⟨0, 47.123456789⟩ (.ofList [("seamark:type", "light_major")]),
    .node 9 ⟨1e22, 5e-22⟩ (.ofList [("name", "Far")])]

/-- All digits of this harbour are held exactly, so it is written again as it was. -/
theorem overpass_document_moved_harbour :
    let records := Reduction.recordsOf harbour .empty
    (∀ record ∈ records,
      record.position.lon.isFinite = true ∧ record.position.lat.isFinite = true) ∧
    (∀ record ∈ records, record.HoldsDigits) ∧
    ∃ moved : List Record,
      Source.overpass (.ok (document records).toUTF8.toList) = .ok (moved.map element) ∧
        ∀ other,
          document (Reduction.recordsOf (moved.map element) other) = document records := by
  intro records
  have each : ∀ record ∈ records,
      (record.position.lon.isFinite = true ∧ record.position.lat.isFinite = true) ∧
        ∀ value ∈ record.position.coordinates,
          (Decimal.shownDigits value).significand < 2 ^ 53 ∧
            (Decimal.shownDigits value).exponent.natAbs ≤ 22 := by
    intro record member
    change record ∈ Reduction.recordsOf harbour .empty at member
    rw [Reduction.recordsOf, Reduction.records_ofElements, List.mem_mergeSort] at member
    revert record
    decide +kernel
  have finite : ∀ record ∈ records,
      record.position.lon.isFinite = true ∧ record.position.lat.isFinite = true :=
    fun record member => (each record member).1
  have holds : ∀ record ∈ records, record.HoldsDigits := by
    intro record member
    have digits (value : Float) (isCoordinate : value ∈ record.position.coordinates) :
        Decimal.HoldsDigits value :=
      have few := (each record member).2 value isCoordinate
      Decimal.holdsDigits_of_lt few.1 few.2
    exact ⟨digits _ (List.mem_cons_of_mem _ List.mem_cons_self), digits _ List.mem_cons_self⟩
  obtain ⟨moved, succeeded, _, again⟩ := overpass_document_moved records finite
  exact ⟨finite, holds, moved, succeeded, fun other => (again harbour .empty rfl other).2 holds⟩

/-- The digits of this latitude are no float, so it is read as the float below it. -/
def pier : Record := ⟨1, ⟨0, 0.9007199254740993⟩, .ofList [("name", "Pier")]⟩

def lowerPier : Record := { pier with position := ⟨0, 0.9007199254740992⟩ }

theorem reread?_pier : pier.reread? = some lowerPier.element := by
  have lat : LightList.reread? pier.position.lat = some lowerPier.position.lat := by
    decide +kernel
  have lon : LightList.reread? pier.position.lon = some lowerPier.position.lon := by
    decide +kernel
  rw [reread?, lat, lon]
  rfl

/-- One light is moved by the last bit, and its line is written with another digit. -/
theorem overpass_document_pier :
    pier.position.lon.isFinite = true ∧ pier.position.lat.isFinite = true ∧
      pier.position.lat ≠ lowerPier.position.lat ∧
      Reduction.recordsOf [pier.element] .empty = [pier] ∧
      Source.overpass (.ok (document [pier]).toUTF8.toList) = .ok [lowerPier.element] ∧
      document (Reduction.recordsOf [lowerPier.element] .empty) ≠ document [pier] := by
  have areReduced : AreReduced [pier] := by
    refine ⟨?_, ?_, List.pairwise_singleton _ _⟩
    · decide
    · decide
  have lower : AreReduced [lowerPier] := areReduced.congr rfl
  have once : Reduction.recordsOf [pier.element] .empty = [pier] :=
    (areReduced.ofElements_eq .empty).1
  have again : Reduction.recordsOf [lowerPier.element] .empty = [lowerPier] :=
    (lower.ofElements_eq .empty).1
  have succeeded : Source.overpass (.ok (document [pier]).toUTF8.toList) =
      .ok [lowerPier.element] :=
    overpass_of_isReadAs (.cons (isReadAs_of_reread? reread?_pier) .nil)
  refine ⟨rfl, rfl, by decide, once, succeeded, ?_⟩
  rw [again]
  decide +kernel

end Record

end LightList
