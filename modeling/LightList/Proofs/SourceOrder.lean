/-
This file shows that a reduction does not depend on the order of the extract, as long as no two
indexed nodes and no two recorded elements share an identifier.
-/

import LightList.Proofs.PointIndexEntries
import LightList.Proofs.ReductionFates

namespace LightList

namespace Element

section Congruence

variable {element : Element} {index other : PointIndex}

/-- The record depends on the index only through the place. -/
theorem record?_congr (same : element.place? index = element.place? other) :
    element.record? index = element.record? other := by
  rw [record?, record?, same]

/-- There is a record exactly if the element is tagged and placed. -/
theorem isSome_record? :
    (element.record? index).isSome = (element.isTagged && (element.place? index).isSome) := by
  unfold record?
  cases element.isTagged <;> simp

theorem isStranded_congr (same : element.place? index = element.place? other) :
    element.isStranded index = element.isStranded other := by
  rw [isStranded, isStranded, same]

theorem isCentred_congr (same : element.place? index = element.place? other) :
    element.isCentred index = element.isCentred other := by
  rw [isCentred, isCentred, record?_congr same]

end Congruence

end Element

namespace Reduction

/-- Records with distinct identifiers have only one sorted order. -/
theorem eq_of_perm_of_distinct {records others : List Record} (perm : records.Perm others)
    (distinct : (records.map Record.id).Nodup) :
    records.mergeSort (fun first second => decide (first.id ≤ second.id)) =
      others.mergeSort fun first second => decide (first.id ≤ second.id) := by
  have order := StableSort.isOrder_byId Record.id
  have antisymmetric (first second : Record)
      (firstMember : first ∈ records.mergeSort fun first second => decide (first.id ≤ second.id))
      (secondMember : second ∈ others.mergeSort fun first second => decide (first.id ≤ second.id))
      (low : decide (first.id ≤ second.id) = true) (high : decide (second.id ≤ first.id) = true) :
      first = second := by
    have here : first ∈ records := (List.mergeSort_perm _ _).mem_iff.1 firstMember
    have there : second ∈ records :=
      perm.mem_iff.2 ((List.mergeSort_perm _ _).mem_iff.1 secondMember)
    apply List.inj_on_of_nodup_map distinct here there
    exact Int64.le_antisymm (of_decide_eq_true low) (of_decide_eq_true high)
  exact List.Perm.eq_of_pairwise antisymmetric
    (List.pairwise_mergeSort order.trans order.total _)
    (List.pairwise_mergeSort order.trans order.total _)
    ((List.mergeSort_perm _ _).trans (perm.trans (List.mergeSort_perm _ _).symm))

/--
Whatever the order of the extract, the same elements give the same records in the same order, the
same counters, and the same text.
-/
theorem ofElements_eq_of_perm {elements shuffled : List Element} (perm : elements.Perm shuffled)
    (distinctNodes : ((elements.filter fun element =>
      element.kind = .node && element.point?.isSome).map Element.id).Nodup)
    (distinctRecords : ((elements.filter fun element =>
      (element.record? (.ofElements elements)).isSome).map Element.id).Nodup) :
    let first := ofElements elements (.ofElements elements)
    let second := ofElements shuffled (.ofElements shuffled)
    second.records = first.records ∧
      second.sourceElements = first.sourceElements ∧
      second.droppedUntagged = first.droppedUntagged ∧
      second.droppedUnplaced = first.droppedUnplaced ∧
      second.pathsCentred = first.pathsCentred ∧
      Record.document second.records = Record.document first.records ∧
      ∀ sink, Record.write second.records sink = Record.write first.records sink := by
  intro first second
  let index := PointIndex.ofElements elements
  let other := PointIndex.ofElements shuffled
  have distinctEntries : ((elements.filterMap Element.indexEntry?).map Prod.fst).Nodup := by
    rw [PointIndex.keys_indexEntries]
    exact distinctNodes
  have places (element : Element) : element.place? other = element.place? index :=
    Element.place?_congr fun id _ => (PointIndex.get?_of_perm perm distinctEntries id).symm
  have record : Element.record? other = Element.record? index :=
    funext fun element => Element.record?_congr (places element)
  have stranded : Element.isStranded other = Element.isStranded index :=
    funext fun element => Element.isStranded_congr (places element)
  have centred : Element.isCentred other = Element.isCentred index :=
    funext fun element => Element.isCentred_congr (places element)
  have records : second.records = first.records := by
    rw [records_ofElements, records_ofElements, record]
    refine (eq_of_perm_of_distinct (perm.filterMap _) ?_).symm
    rw [Keyed.map_filterMap Element.id_of_record?]
    exact distinctRecords
  refine ⟨records, perm.symm.length_eq, ?_, ?_, ?_, ?_, ?_⟩
  · rw [droppedUntagged_ofElements, droppedUntagged_ofElements]
    exact perm.symm.countP_eq _
  · rw [droppedUnplaced_ofElements, droppedUnplaced_ofElements, stranded]
    exact perm.symm.countP_eq _
  · rw [pathsCentred_ofElements, pathsCentred_ofElements, centred]
    exact perm.symm.countP_eq _
  · rw [records]
  · intro sink
    rw [records]

/-- A node, a path over two others, and a path without a place that shares an identifier. -/
def crossing : List Element :=
  [.way 20 [1, 2] (.ofList [("seamark:light:character", "F")]), .node 1 ⟨0, 0⟩ .empty,
    .node 30 ⟨1, 1⟩ (.ofList [("name", "Mole")]), .way 1 [404] (.ofList [("name", "Lost")]),
    .node 2 ⟨4, 0⟩ .empty]

/-- The crossing is read backwards here, with the same result. -/
theorem ofElements_eq_of_perm_reversed :
    ((crossing.filter fun element =>
        (element.record? (.ofElements crossing)).isSome).map Element.id) = [20, 30] ∧
      (ofElements crossing.reverse (.ofElements crossing.reverse)).records =
        (ofElements crossing (.ofElements crossing)).records := by
  have indexed (id : ElementId) : (PointIndex.ofElements crossing).get? id =
      [(2, ⟨4, 0⟩), (30, ⟨1, 1⟩), (1, ⟨0, 0⟩)].lookup id := PointIndex.get?_ofElements crossing id
  have recorded : ((crossing.filter fun element =>
      (element.record? (.ofElements crossing)).isSome).map Element.id) = [20, 30] := by
    simp only [Element.isSome_record?, Element.isSome_place?, indexed]
    decide +kernel
  have reversed := ofElements_eq_of_perm (List.reverse_perm crossing).symm (by decide +kernel)
    (by rw [recorded]; decide)
  exact ⟨recorded, reversed.1⟩

end Reduction

end LightList
