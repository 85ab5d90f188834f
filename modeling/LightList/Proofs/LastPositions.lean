/-
This file says exactly what an index holds: for every identifier the position of the last node of that
identifier that has one.

Nodes, ways and relations share the identifiers, and a node without a direct position leaves an older
entry as it is. An index of two extracts in a row answers from the second one first.
-/

import LightList.Proofs.PointIndexEntries
import Mathlib.Data.Finset.Card

namespace LightList

/-- Only these elements enter the index: nodes with a direct position. -/
def Element.isIndexed (element : Element) : Bool := element.kind = .node && element.point?.isSome

namespace PointIndex

/-- This is the last element that may answer for the identifier. -/
def last? (elements : List Element) (id : ElementId) : Option Element :=
  (elements.filter fun element => element.isIndexed && element.id = id).getLast?

/-- A later list is searched before an earlier one. -/
theorem last?_append (elements more : List Element) (id : ElementId) :
    last? (elements ++ more) id = (last? more id).or (last? elements id) := by
  rw [last?, List.filter_append, List.getLast?_append]
  rfl

/-- There is no last node exactly if no indexed element has the id. -/
theorem last?_eq_none_iff {elements : List Element} {id : ElementId} :
    last? elements id = none ↔
      ∀ element ∈ elements, element.isIndexed = true → element.id ≠ id := by
  simp [last?]

/-- The last node has a position of its own. -/
theorem exists_point_of_last? {elements : List Element} {id : ElementId} {element : Element}
    (found : last? elements id = some element) :
    ∃ position, element.point? = some position := by
  have chosen := (List.mem_filter.1 (List.mem_of_getLast? found)).2
  have indexed := (Bool.and_eq_true_iff.1 chosen).1
  exact Option.isSome_iff_exists.1 (Bool.and_eq_true_iff.1 indexed).2

/-- One more element answers for its identifier if it is indexed, and changes nothing otherwise. -/
theorem get?_add_eq_or (index : PointIndex) (element : Element) (id : ElementId) :
    (index.add element).get? id = ((last? [element] id).bind Element.point?).or (index.get? id) := by
  rw [get?_add, last?, List.filter_singleton, Element.isIndexed]
  by_cases isNode : element.kind = .node
  · by_cases same : element.id = id
    · cases point : element.point? with
      | none => simp [isNode, same]
      | some position => simp [isNode, same, point]
    · simp [same]
  · simp [isNode]

/-- The induction takes the elements from the front, so the last one is added last. -/
theorem get?_ofElements_eq_last (elements : List Element) (id : ElementId) :
    (ofElements elements).get? id = (last? elements id).bind Element.point? := by
  induction elements using List.reverseRecOn with
  | nil => exact get?_empty id
  | append_singleton front element inductionHypothesis =>
      rw [ofElements, List.foldl_concat, get?_add_eq_or, ← ofElements, inductionHypothesis,
        last?_append]
      cases found : last? [element] id with
      | none => simp
      | some last =>
          obtain ⟨position, isPoint⟩ := exists_point_of_last? found
          simp [isPoint]

/-- Nothing is found exactly if no indexed element has the id. -/
theorem get?_ofElements_eq_none_iff {elements : List Element} {id : ElementId} :
    (ofElements elements).get? id = none ↔
      ∀ element ∈ elements, element.isIndexed = true → element.id ≠ id := by
  rw [get?_ofElements_eq_last, ← last?_eq_none_iff]
  constructor
  · intro unanswered
    cases found : last? elements id with
    | none => rfl
    | some last =>
        obtain ⟨position, isPoint⟩ := exists_point_of_last? found
        rw [found, Option.bind_some, isPoint] at unanswered
        cases unanswered
  · intro absent
    rw [absent, Option.bind_none]

/-- Of two extracts in a row the second one answers where it can. -/
theorem get?_ofElements_append (elements more : List Element) (id : ElementId) :
    (ofElements (elements ++ more)).get? id =
      ((ofElements more).get? id).or ((ofElements elements).get? id) := by
  cases found : last? more id with
  | none => simp [get?_ofElements_eq_last, last?_append, found]
  | some last =>
      obtain ⟨position, isPoint⟩ := exists_point_of_last? found
      simp [get?_ofElements_eq_last, last?_append, found, isPoint]

/-- The identifiers that the index holds are those of the indexed elements. -/
theorem mem_positions_iff {elements : List Element} {id : ElementId} :
    id ∈ (ofElements elements).positions ↔
      id ∈ (elements.filter Element.isIndexed).map Element.id := by
  have known : ¬ (ofElements elements).get? id = none ↔ _ := get?_ofElements_eq_none_iff.not
  rw [get?, ← Ne, ← Option.isSome_iff_ne_none, Std.HashMap.isSome_getElem?_iff_mem] at known
  rw [known]
  simp [and_assoc]

/-- The keys of the index are distinct, so they are counted without repeats. -/
theorem size_ofElements (elements : List Element) :
    (ofElements elements).size =
      ((elements.filter Element.isIndexed).map Element.id).toFinset.card := by
  rw [size, ← Std.HashMap.length_keys, ← List.toFinset_card_of_nodup Std.HashMap.nodup_keys]
  congr 1
  ext id
  rw [List.mem_toFinset, List.mem_toFinset, Std.HashMap.mem_keys, mem_positions_iff]

/-- The index is empty exactly if no element is indexed. -/
theorem isEmpty_ofElements_iff {elements : List Element} :
    (ofElements elements).isEmpty = true ↔ ∀ element ∈ elements, element.isIndexed = false := by
  rw [isEmpty, Std.HashMap.isEmpty_iff_forall_not_mem]
  simp only [mem_positions_iff]
  rw [← List.eq_nil_iff_forall_not_mem, List.map_eq_nil_iff, List.filter_eq_nil_iff]
  simp

/--
The index answers every identifier with the position of the last node that has it and lies on a
direct position, and has nothing else. An extract that goes on answers from its second part first.
-/
theorem ofElements_last (elements more : List Element) :
    let index := ofElements elements
    (∀ id, index.get? id =
      (elements.filter fun element => element.isIndexed && element.id = id).getLast?.bind
        Element.point?) ∧
    (∀ id, index.get? id = none ↔
      ∀ element ∈ elements, element.isIndexed = true → element.id ≠ id) ∧
    index.size = ((elements.filter Element.isIndexed).map Element.id).toFinset.card ∧
    (index.isEmpty = true ↔ ∀ element ∈ elements, element.isIndexed = false) ∧
    ∀ id, (ofElements (elements ++ more)).get? id =
      ((ofElements more).get? id).or (index.get? id) :=
  ⟨get?_ofElements_eq_last elements, fun _ => get?_ofElements_eq_none_iff,
    size_ofElements elements, isEmpty_ofElements_iff, get?_ofElements_append elements more⟩

end PointIndex

end LightList
