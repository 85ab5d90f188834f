/-
This file accounts for every element of an extract that is reduced: it becomes one record, or it is
dropped for want of tags, or it is dropped for want of a place, and each of these is counted.
-/

import LightList.Proofs.StableSort
import LightList.Reduction

namespace LightList

namespace Element

/-- This says that a tag of the element survives reduction. -/
def isTagged (element : Element) : Bool := element.tags.entries.any fun entry => Tags.keeps entry.1

/-- This is the record that an element gives, if it has a kept tag and a place. -/
def record? (index : PointIndex) (element : Element) : Option Record :=
  if element.isTagged then
    (element.place? index).map fun position =>
      ⟨element.id, position, element.tags.filterKeys Tags.keeps⟩
  else none

/-- A stranded element has a kept tag and no place. -/
def isStranded (index : PointIndex) (element : Element) : Bool :=
  element.isTagged && (element.place? index).isNone

/-- A centred element gives a record whose position is a mean of references. -/
def isCentred (index : PointIndex) (element : Element) : Bool :=
  (element.record? index).isSome && element.geometry.isPath

/-- Tags are kept exactly if some of them are worth it. -/
theorem kept?_eq (element : Element) :
    element.tags.kept? =
      if element.isTagged then some (element.tags.filterKeys Tags.keeps) else none := by
  have nothing : (element.tags.filterKeys Tags.keeps).isEmpty = !element.isTagged := by
    rw [Tags.isEmpty, Tags.filterKeys, isTagged, List.not_any_eq_all_not, Bool.eq_iff_iff,
      List.isEmpty_iff, List.filter_eq_nil_iff, List.all_eq_true]
    simp
  unfold Tags.kept?
  rw [nothing]
  cases element.isTagged with
  | true => rfl
  | false => rfl

theorem id_of_record? {index : PointIndex} {element : Element} {record : Record}
    (found : element.record? index = some record) : record.id = element.id := by
  unfold record? at found
  split at found
  · obtain ⟨position, _, rfl⟩ := Option.map_eq_some_iff.1 found
    rfl
  · cases found

section Fates

-- A fate is told by two questions: whether a tag is kept, and whether there is a place.
variable (index : PointIndex) (element : Element)

/-- The fate of an element decides its record. -/
theorem record?_fate : (element.fate index).record? = element.record? index := by
  unfold fate record?
  rw [kept?_eq]
  cases element.isTagged <;> cases element.place? index <;> rfl

theorem isUntagged_fate : (element.fate index).isUntagged = !element.isTagged := by
  unfold fate
  rw [kept?_eq]
  cases element.isTagged <;> cases element.place? index <;> rfl

/-- An element is dropped for want of a place exactly if it is tagged and has none. -/
theorem isUnplaced_fate : (element.fate index).isUnplaced = element.isStranded index := by
  unfold fate isStranded
  rw [kept?_eq]
  cases element.isTagged <;> cases element.place? index <;> rfl

/-- A record comes from a path exactly if its element is tagged and is placed by references. -/
theorem isFromPath_fate : (element.fate index).isFromPath = element.isCentred index := by
  unfold fate isCentred record?
  rw [kept?_eq]
  cases element.isTagged <;> cases element.place? index <;> rfl

/-- Only elements without a place are reported. -/
theorem notice?_fate :
    (element.fate index).notice? =
      if element.isStranded index then some (.elementUnplaced element.id) else none := by
  unfold fate isStranded
  rw [kept?_eq]
  cases element.isTagged <;> cases element.place? index <;> rfl

end Fates

end Element

namespace Reduction

section Accounts

variable (index : PointIndex) (elements : List Element)

/-- One element more is one record more, or one dropped element more of one kind. -/
theorem length_eq_balance :
    elements.length =
      (elements.filterMap (Element.record? index)).length +
        elements.countP (fun element => !element.isTagged) +
        elements.countP (Element.isStranded index) := by
  induction elements with
  | nil => rfl
  | cons element rest inductionHypothesis =>
      rw [List.length_cons, inductionHypothesis, List.filterMap_cons, List.countP_cons,
        List.countP_cons, Element.record?, Element.isStranded]
      cases element.isTagged with
      | false =>
          simp
          omega
      | true =>
          cases element.place? index with
          | none =>
              simp
              omega
          | some position =>
              simp
              omega

/-- The records are those of the single elements, sorted by id. -/
theorem records_ofElements :
    (ofElements elements index).records =
      (elements.filterMap (Element.record? index)).mergeSort fun first second =>
        decide (first.id ≤ second.id) := by
  simp only [ofElements, List.filterMap_map]
  congr 2
  funext element
  exact element.record?_fate index

/-- This counter counts the elements without kept tags. -/
theorem droppedUntagged_ofElements :
    (ofElements elements index).droppedUntagged =
      elements.countP fun element => !element.isTagged := by
  simp only [ofElements, List.countP_map, Function.comp_def, Element.isUntagged_fate]

/-- This counter counts the tagged elements without a place. -/
theorem droppedUnplaced_ofElements :
    (ofElements elements index).droppedUnplaced =
      elements.countP (Element.isStranded index) := by
  simp only [ofElements, List.countP_map, Function.comp_def, Element.isUnplaced_fate]

/-- This counter counts the records that are placed by references. -/
theorem pathsCentred_ofElements :
    (ofElements elements index).pathsCentred = elements.countP (Element.isCentred index) := by
  simp only [ofElements, List.countP_map, Function.comp_def, Element.isFromPath_fate]

/-- There is one notice for each tagged element without a place, in their order. -/
theorem notices_ofElements :
    (ofElements elements index).notices =
      (elements.filter (Element.isStranded index)).map fun element =>
        .elementUnplaced element.id := by
  simp only [ofElements, List.filterMap_map, Function.comp_def, Element.notice?_fate]
  induction elements with
  | nil => rfl
  | cons element rest inductionHypothesis =>
      rw [List.filterMap_cons, List.filter_cons, inductionHypothesis]
      cases element.isStranded index with
      | false => rfl
      | true => rfl

/-- Records of one identifier come from the elements of that identifier. -/
theorem filter_id_records (id : ElementId) :
    (elements.filterMap (Element.record? index)).filter (fun record => record.id == id) =
      (elements.filter fun element => element.id == id).filterMap (Element.record? index) := by
  induction elements with
  | nil => rfl
  | cons element rest inductionHypothesis =>
      rw [List.filterMap_cons, List.filter_cons]
      cases found : element.record? index with
      | none =>
          cases element.id == id with
          | false => exact inductionHypothesis
          | true => simpa [found] using inductionHypothesis
      | some record =>
          dsimp only
          rw [List.filter_cons, Element.id_of_record? found]
          cases element.id == id with
          | false => exact inductionHypothesis
          | true => simpa [found] using inductionHypothesis

end Accounts

/--
A reduction accounts for its extract when its records are those that the elements give, each once,
in ascending order and where identifiers repeat in the order of the extract, and when its counters
and notices say which elements were dropped.
-/
structure AccountsFor (reduction : Reduction) (elements : List Element) (index : PointIndex) :
    Prop where
  exact : reduction.records.Perm (elements.filterMap (Element.record? index))
  ascending : reduction.records.Pairwise fun first second => first.id ≤ second.id
  stable (id : ElementId) :
    reduction.records.filter (fun record => record.id == id) =
      (elements.filter fun element => element.id == id).filterMap (Element.record? index)
  source : reduction.sourceElements = elements.length
  balance : elements.length =
    reduction.records.length + reduction.droppedUntagged + reduction.droppedUnplaced
  untagged : reduction.droppedUntagged = elements.countP fun element => !element.isTagged
  unplaced : reduction.droppedUnplaced = elements.countP (Element.isStranded index)
  centred : reduction.pathsCentred = elements.countP (Element.isCentred index)
  reported : reduction.notices.map Notice.record =
    (elements.filter (Element.isStranded index)).map fun element =>
      ⟨.debug, "seamark::records", s!"element {element.id.toInt} has no resolvable position"⟩
  counted : reduction.notices.length = reduction.droppedUnplaced

/-- A reduction loses nothing and invents nothing, and the records alone are the same. -/
theorem ofElements_accountsFor (elements : List Element) (index : PointIndex) :
    (ofElements elements index).AccountsFor elements index ∧
      recordsOf elements index = (ofElements elements index).records := by
  refine ⟨?_, rfl⟩
  constructor
  · rw [records_ofElements]
    exact List.mergeSort_perm _ _
  · rw [records_ofElements]
    have order := StableSort.isOrder_byId Record.id
    simpa using List.pairwise_mergeSort order.trans order.total _
  · intro id
    rw [records_ofElements, StableSort.filter_mergeSort_of_tied (StableSort.isOrder_byId _),
      filter_id_records]
    intro first second atFirst atSecond
    rw [beq_iff_eq.1 atFirst, beq_iff_eq.1 atSecond]
    simp
  · rfl
  · rw [droppedUntagged_ofElements, droppedUnplaced_ofElements, records_ofElements,
      List.length_mergeSort]
    exact length_eq_balance index elements
  · exact droppedUntagged_ofElements index elements
  · exact droppedUnplaced_ofElements index elements
  · exact pathsCentred_ofElements index elements
  · rw [notices_ofElements, List.map_map]
    rfl
  · rw [notices_ofElements, List.length_map, droppedUnplaced_ofElements,
      List.countP_eq_length_filter]

end Reduction

end LightList
