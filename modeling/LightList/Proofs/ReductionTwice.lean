/-
This file shows that a reduced extract is reduced to itself.

Reduction leaves records with kept tags alone, each on a point of its own, and in the order that
they are sorted into. Such records come back unchanged, and so do their identifiers and tags when
they are written down and read in between.
-/

import LightList.Proofs.AcceptedFloats
import LightList.Proofs.KeptTagsOnly
import LightList.Proofs.ReductionFates

namespace LightList

/-- These are the records that reduction leaves: each has kept tags alone, and they are sorted. -/
structure Record.AreReduced (records : List Record) : Prop where
  tagged : ∀ record ∈ records, record.element.isTagged = true
  kept : ∀ record ∈ records, record.tags.filterKeys Tags.keeps = record.tags
  sorted : records.Pairwise fun first second => decide (first.id ≤ second.id) = true

/-- An element has a record exactly if it is tagged and placed. -/
theorem Element.record?_eq_some_iff {index : PointIndex} {element : Element} {record : Record} :
    element.record? index = some record ↔
      element.isTagged = true ∧ ∃ position, element.place? index = some position ∧
        record = ⟨element.id, position, element.tags.filterKeys Tags.keeps⟩ := by
  unfold record?
  split
  · next tagged => simp [tagged, eq_comm]
  · next untagged => simp [untagged]

namespace Reduction

/-- Whatever is reduced, its records are. -/
theorem areReduced_records (elements : List Element) (index : PointIndex) :
    Record.AreReduced (recordsOf elements index) := by
  have each (record : Record) (member : record ∈ recordsOf elements index) :
      ∃ (element : Element) (position : Position), element.isTagged = true ∧
        record = ⟨element.id, position, element.tags.filterKeys Tags.keeps⟩ := by
    rw [recordsOf, records_ofElements, List.mem_mergeSort, List.mem_filterMap] at member
    obtain ⟨element, _, found⟩ := member
    obtain ⟨tagged, position, _, same⟩ := Element.record?_eq_some_iff.1 found
    exact ⟨element, position, tagged, same⟩
  constructor
  · intro record member
    obtain ⟨element, position, tagged, rfl⟩ := each record member
    change (element.tags.entries.filter _).any _ = true
    rw [List.any_filter]
    simpa [Element.isTagged] using tagged
  · intro record member
    obtain ⟨element, position, _, rfl⟩ := each record member
    exact Tags.filterKeys_filterKeys element.tags Tags.keeps
  · have order := StableSort.isOrder_byId Record.id
    rw [recordsOf, records_ofElements]
    exact List.pairwise_mergeSort order.trans order.total _

end Reduction

/-- A record on its own point needs no index. -/
theorem Record.record?_element {record : Record} (tagged : record.element.isTagged = true)
    (kept : record.tags.filterKeys Tags.keeps = record.tags) (index : PointIndex) :
    record.element.record? index = some record := by
  apply Element.record?_eq_some_iff.2
  apply And.intro tagged
  apply Exists.intro record.position
  apply And.intro rfl
  change record = ⟨record.id, record.position, record.tags.filterKeys Tags.keeps⟩
  rw [kept]

namespace Record.AreReduced

variable {records : List Record}

/-- Only identifiers and tags are looked at. -/
theorem congr (areReduced : AreReduced records) {moved : List Record}
    (same : moved.map (fun record => (record.id, record.tags)) =
      records.map fun record => (record.id, record.tags)) : AreReduced moved := by
  have each (record : Record) (member : record ∈ moved) :
      ∃ original ∈ records, original.id = record.id ∧ original.tags = record.tags := by
    have listed := List.mem_map_of_mem (f := fun record => (record.id, record.tags)) member
    rw [same] at listed
    obtain ⟨original, isOriginal, found⟩ := List.mem_map.1 listed
    exact ⟨original, isOriginal, congrArg Prod.fst found, congrArg Prod.snd found⟩
  constructor
  · intro record member
    obtain ⟨original, isOriginal, _, tags⟩ := each record member
    change record.tags.entries.any _ = true
    rw [← tags]
    exact areReduced.tagged original isOriginal
  · intro record member
    obtain ⟨original, isOriginal, _, tags⟩ := each record member
    rw [← tags]
    exact areReduced.kept original isOriginal
  · have ids : moved.map Record.id = records.map Record.id := by
      have firsts := congrArg (List.map Prod.fst) same
      rw [List.map_map, List.map_map] at firsts
      exact firsts
    have sorted : (records.map Record.id).Pairwise fun first second =>
        decide (first ≤ second) = true := List.pairwise_map.2 areReduced.sorted
    rw [← ids] at sorted
    exact List.pairwise_map.1 sorted

/-- Sorted records of kept tags are reduced to themselves. -/
theorem ofElements_eq (areReduced : AreReduced records) (index : PointIndex) :
    let again := Reduction.ofElements (records.map element) index
    again.records = records ∧ again.sourceElements = records.length ∧
      again.droppedUntagged = 0 ∧ again.droppedUnplaced = 0 ∧ again.pathsCentred = 0 := by
  refine ⟨?_, List.length_map _, ?_, ?_, ?_⟩
  · have found : records.filterMap (fun record => record.element.record? index) = records := by
      rw [List.filterMap_congr fun record member => record?_element
        (areReduced.tagged record member) (areReduced.kept record member) index]
      exact List.filterMap_some
    rw [Reduction.records_ofElements, List.filterMap_map]
    change (records.filterMap fun record => record.element.record? index).mergeSort _ = records
    rw [found]
    exact List.mergeSort_of_pairwise areReduced.sorted
  · rw [Reduction.droppedUntagged_ofElements, List.countP_map, List.countP_eq_zero]
    intro record member
    simp [areReduced.tagged record member]
  · rw [Reduction.droppedUnplaced_ofElements, List.countP_map, List.countP_eq_zero]
    intro record _
    simp [Element.isStranded, Element.place?, element, Element.node, Geometry.place?]
  · rw [Reduction.pathsCentred_ofElements, List.countP_map, List.countP_eq_zero]
    intro record _
    simp [Element.isCentred, element, Element.node, Geometry.isPath]

end Record.AreReduced

namespace Reduction

/-- What is read back are nodes with the identifiers and tags of the records. -/
theorem exists_moved {records : List Record} {elements : List Element}
    (read : List.Forall₂ (fun record element => record.reread? = some element) records elements) :
    ∃ moved : List Record, elements = moved.map Record.element ∧
      moved.map (fun record => (record.id, record.tags)) =
        records.map fun record => (record.id, record.tags) := by
  induction read with
  | nil => exact ⟨[], rfl, rfl⟩
  | @cons record element rest others found _ inductionHypothesis =>
      obtain ⟨moved, same, tags⟩ := inductionHypothesis
      obtain ⟨lat, _, found⟩ := Option.bind_eq_some_iff.1 found
      obtain ⟨lon, _, found⟩ := Option.bind_eq_some_iff.1 found
      cases found
      apply Exists.intro (⟨record.id, ⟨lon, lat⟩, record.tags⟩ :: moved)
      rw [List.map_cons, List.map_cons, List.map_cons, same, tags]
      exact ⟨rfl, rfl⟩

/--
The records of a reduction, taken as nodes, are reduced to themselves with any index, and nothing is
counted but these nodes. Written down and read back they keep their identifiers, tags and order.
-/
theorem ofElements_records_again (elements : List Element) (index : PointIndex) :
    let records := recordsOf elements index
    (∀ other,
      let again := ofElements (records.map Record.element) other
      again.records = records ∧ again.sourceElements = records.length ∧
        again.droppedUntagged = 0 ∧ again.droppedUnplaced = 0 ∧ again.pathsCentred = 0) ∧
    ((∀ record ∈ records,
        record.position.lon.isFinite = true ∧ record.position.lat.isFinite = true) →
      ∃ read, Source.overpass (.ok (Record.document records).toUTF8.toList) = .ok read ∧
        ∀ other, (recordsOf read other).map (fun record => (record.id, record.tags)) =
          records.map fun record => (record.id, record.tags)) := by
  intro records
  have areReduced := areReduced_records elements index
  refine ⟨areReduced.ofElements_eq, ?_⟩
  intro finite
  have each (record : Record) (member : record ∈ records) :
      ∃ element, record.reread? = some element := by
    apply Record.exists_element
    · intro value isCoordinate
      have coordinates := finite record member
      rcases List.mem_pair.1 isCoordinate with rfl | rfl
      · exact coordinates.2
      · exact coordinates.1
    · exact fun value _ => isAccepted_all value
  obtain ⟨read, succeeded, nodes⟩ := Record.exists_elements each
  obtain ⟨moved, rfl, same⟩ := exists_moved nodes
  refine ⟨_, succeeded, ?_⟩
  intro other
  rw [recordsOf, ((areReduced.congr same).ofElements_eq other).1]
  exact same

/-- Two nodes share an identifier, one has no kept tag, and the largest float is a coordinate. -/
def crowded : List Element :=
  [.node 9 ⟨1.7976931348623157e308, 0.1⟩ (.ofList [("name", "Outer"), ("source", "survey")]),
    .node 4 ⟨0, 0⟩ (.ofList [("source", "survey")]),
    .node 9 ⟨-0.0, 5e-324⟩ (.ofList [("seamark:type", "buoy_lateral")]),
    .node 2 ⟨1e22, 60.3⟩ (.ofList [("name", "Inner")])]

/-- Two of these elements have the same id, and both stay. -/
theorem ofElements_records_again_crowded :
    (recordsOf crowded .empty).length = 3 ∧
      (∀ record ∈ recordsOf crowded .empty,
        record.position.lon.isFinite = true ∧ record.position.lat.isFinite = true) ∧
      ∃ read, Source.overpass (.ok (Record.document (recordsOf crowded .empty)).toUTF8.toList) =
          .ok read ∧
        ∀ other, (recordsOf read other).map (fun record => (record.id, record.tags)) =
          (recordsOf crowded .empty).map fun record => (record.id, record.tags) := by
  have finite : ∀ record ∈ recordsOf crowded .empty,
      record.position.lon.isFinite = true ∧ record.position.lat.isFinite = true := by
    intro record member
    rw [recordsOf, records_ofElements, List.mem_mergeSort] at member
    revert record
    decide +kernel
  refine ⟨?_, finite, (ofElements_records_again crowded .empty).2 finite⟩
  rw [recordsOf, records_ofElements, List.length_mergeSort]
  decide +kernel

end Reduction

end LightList
