/-
This file says what an index built from an extract answers, and how far a place depends on it.

The last node with a direct position decides what its identifier has. An element asks the index only
for its own references.
-/

import LightList.Placement
import LightList.Proofs.TagLookup
import Mathlib.Data.List.Basic
import Mathlib.Data.List.Nodup

namespace LightList

namespace Keyed

/-- A key that the results share with what they come from can be read off before or after. -/
theorem map_filterMap {Source Result Key : Type} {change : Source → Option Result}
    {key : Source → Key} {resultKey : Result → Key}
    (same : ∀ {source result}, change source = some result → resultKey result = key source)
    (sources : List Source) :
    (sources.filterMap change).map resultKey =
      (sources.filter fun source => (change source).isSome).map key := by
  induction sources with
  | nil => rfl
  | cons source rest inductionHypothesis =>
      rw [List.filterMap_cons, List.filter_cons]
      cases found : change source with
      | none => simpa using inductionHypothesis
      | some result => simpa [same found] using inductionHypothesis

variable {Key Value : Type} [BEq Key] [LawfulBEq Key] [DecidableEq Key]

/-- Where keys are distinct, looking one up finds exactly its entry. -/
theorem lookup_eq_some_iff {entries : List (Key × Value)} (distinct : (entries.map Prod.fst).Nodup)
    {key : Key} {value : Value} : entries.lookup key = some value ↔ (key, value) ∈ entries := by
  induction entries with
  | nil => simp
  | cons entry rest inductionHypothesis =>
      obtain ⟨fresh, restDistinct⟩ := List.nodup_cons.1 distinct
      rw [lookup_cons_eq, List.mem_cons]
      split
      · next same =>
          subst same
          have absent : (entry.1, value) ∉ rest := fun member =>
            fresh (List.mem_map.2 ⟨_, member, rfl⟩)
          simp [absent, Prod.ext_iff, eq_comm]
      · next different =>
          rw [inductionHypothesis restDistinct]
          simp [Prod.ext_iff, different]

/-- Then the order of the entries does not matter. -/
theorem lookup_of_perm {entries others : List (Key × Value)} (perm : entries.Perm others)
    (distinct : (entries.map Prod.fst).Nodup) (key : Key) :
    entries.lookup key = others.lookup key := by
  have otherDistinct : (others.map Prod.fst).Nodup := (perm.map Prod.fst).nodup_iff.1 distinct
  apply Option.ext
  intro value
  rw [lookup_eq_some_iff distinct, lookup_eq_some_iff otherDistinct, perm.mem_iff]

end Keyed

/-- This is what an element adds to the index, if it is a node with a direct position. -/
def Element.indexEntry? (element : Element) : Option (ElementId × Position) :=
  if element.kind = .node then element.point?.map fun position => (element.id, position) else none

namespace PointIndex

/-- These are the ids of the nodes that have a position of their own. -/
theorem keys_indexEntries (elements : List Element) :
    (elements.filterMap Element.indexEntry?).map Prod.fst =
      (elements.filter fun element =>
        element.kind = .node && element.point?.isSome).map Element.id := by
  have carried {element : Element} {entry : ElementId × Position}
      (found : element.indexEntry? = some entry) : entry.1 = element.id := by
    unfold Element.indexEntry? at found
    split at found
    · obtain ⟨position, _, rfl⟩ := Option.map_eq_some_iff.1 found
      rfl
    · cases found
  rw [Keyed.map_filterMap carried]
  congr 2
  funext element
  unfold Element.indexEntry?
  split
  · next isNode => simp [isNode]
  · next isOther => simp [isOther]

/-- The latest entry is found, and what was in the index before comes last. -/
theorem get?_foldl_add (elements : List Element) (index : PointIndex) (id : ElementId) :
    (elements.foldl add index).get? id =
      ((elements.filterMap Element.indexEntry?).reverse.lookup id).or (index.get? id) := by
  induction elements generalizing index with
  | nil => simp
  | cons element rest inductionHypothesis =>
      rw [List.foldl_cons, inductionHypothesis, get?_add, List.filterMap_cons]
      unfold Element.indexEntry?
      by_cases isNode : element.kind = .node
      · cases element.point? with
        | none => simp [isNode]
        | some position =>
            simp only [isNode, true_and, if_true, Option.map_some, List.reverse_cons,
              List.lookup_append, Keyed.lookup_cons_eq, List.lookup_nil, Option.or_assoc]
            congr 1
            by_cases same : element.id = id
            · simp [same]
            · simp [same, Ne.symm same]
      · simp [isNode]

/-- The last entry of an identifier decides what the index has. -/
theorem get?_ofElements (elements : List Element) (id : ElementId) :
    (ofElements elements).get? id =
      (elements.filterMap Element.indexEntry?).reverse.lookup id := by
  rw [ofElements, get?_foldl_add, get?_empty, Option.or_none]

/-- Where no two entries share an identifier, the order of the extract does not matter. -/
theorem get?_of_perm {elements shuffled : List Element} (perm : elements.Perm shuffled)
    (distinct : ((elements.filterMap Element.indexEntry?).map Prod.fst).Nodup) (id : ElementId) :
    (ofElements elements).get? id = (ofElements shuffled).get? id := by
  rw [get?_ofElements, get?_ofElements]
  apply Keyed.lookup_of_perm
  · exact (List.reverse_perm _).trans ((perm.filterMap _).trans (List.reverse_perm _).symm)
  · rw [List.map_reverse, List.nodup_reverse]
    exact distinct

end PointIndex

/-- These are the references that an element is placed by. -/
def Geometry.references : Geometry → List ElementId
  | .path references => references
  | _ => []

/-- The index is only asked for the references of the element. -/
theorem Element.place?_congr {element : Element} {index other : PointIndex}
    (same : ∀ id ∈ element.geometry.references, index.get? id = other.get? id) :
    element.place? index = element.place? other := by
  unfold place? Geometry.place?
  cases shape : element.geometry with
  | point position => rfl
  | absent => rfl
  | path references =>
      rw [shape] at same
      have positions : index.positionsOf references = other.positionsOf references :=
        List.filterMap_congr same
      dsimp only
      rw [positions]

/-- A path has a place as soon as the index knows one of its references. -/
theorem Element.isSome_place? (element : Element) (index : PointIndex) :
    (element.place? index).isSome =
      match element.geometry with
      | .point _ => true
      | .path references => references.any fun id => (index.get? id).isSome
      | .absent => false := by
  unfold place? Geometry.place?
  cases element.geometry with
  | point position => rfl
  | absent => rfl
  | path references =>
      rw [Bool.eq_iff_iff, Option.isSome_iff_ne_none, Ne, Position.mean?_eq_none_iff,
        PointIndex.positionsOf, List.filterMap_eq_nil_iff]
      simp [Option.isSome_iff_ne_none]

end LightList
