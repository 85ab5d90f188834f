/-
This file shows that an extract loses nothing when elements are added behind it.

The longer index still knows every reference that the shorter one knew, so every element that had a
place has one. It is another place only where a reference leads to a node that was added.
-/

import LightList.Proofs.AuditPieces
import LightList.Proofs.LastPositions
import LightList.Proofs.ReductionTwice

namespace LightList

/-- The element is placed by references, and one of them leads to a node among the others. -/
def Element.RefersTo (element : Element) (others : List Element) : Prop :=
  ∃ id ∈ element.geometry.references, ∃ node ∈ others, node.isIndexed = true ∧ node.id = id

/-- This is all of a record but its position. -/
def Record.content (record : Record) : ElementId × Tags := (record.id, record.tags)

/-- This is all of a feature but its position. -/
def Feature.content (feature : Feature) :
    ElementId × String × Option String × Option String × Option String × Option String :=
  (feature.id, feature.character, feature.name, feature.sequence, feature.period, feature.group)

section Results

variable {Result Content : Type}

/--
What an element gave before it still gives with the same content. The position is the same too, unless
the element refers to an added node.
-/
def Element.KeepsResult (element : Element) (more : List Element)
    (before after : Element → Option Result) (content : Result → Content)
    (position : Result → Position) : Prop :=
  ∀ result, before element = some result → ∃ again, after element = some again ∧
    content again = content result ∧ (¬ element.RefersTo more → position again = position result)

/-- Both results come from one of the elements. -/
def AreFromOne (elements : List Element) (before after : Element → Option Result)
    (result again : Result) : Prop :=
  ∃ element ∈ elements, before element = some result ∧ after element = some again

/-- All earlier results stand among the later ones in their order, with what they contain. -/
structure KeepsResults (elements more : List Element) (before after : Element → Option Result)
    (content : Result → Content) (position : Result → Position) (results later : List Result) :
    Prop where
  each : ∀ element ∈ elements, element.KeepsResult more before after content position
  aligned : List.SublistForall₂ (AreFromOne elements before after) results later
  contents : (results.map content).Sublist (later.map content)

variable {elements more : List Element} {before after : Element → Option Result}
  {content : Result → Content} {position : Result → Position} {results later : List Result}

/-- Results that differ in something else are the same list of what they have in common. -/
theorem sublist_map_of_sublistForall₂ {relates : Result → Result → Prop}
    (same : ∀ result again, relates result again → content result = content again)
    (aligned : List.SublistForall₂ relates results later) :
    (results.map content).Sublist (later.map content) := by
  obtain ⟨kept, pairs, inside⟩ := List.sublistForall₂_iff.1 aligned
  have contents : results.map content = kept.map content := by
    rw [← List.forall₂_eq_eq_eq, List.forall₂_map_left_iff, List.forall₂_map_right_iff]
    exact pairs.imp same
  rw [contents]
  exact inside.map content

/-- It is enough to follow each element and to know the order of the results. -/
theorem KeepsResults.ofAligned
    (each : ∀ element ∈ elements, element.KeepsResult more before after content position)
    (aligned : List.SublistForall₂ (AreFromOne elements before after) results later) :
    KeepsResults elements more before after content position results later := by
  refine ⟨each, aligned, sublist_map_of_sublistForall₂ ?_ aligned⟩
  rintro result again ⟨element, member, found, stillFound⟩
  obtain ⟨other, otherFound, same, _⟩ := each element member result found
  rw [stillFound] at otherFound
  cases otherFound
  exact same.symm

/-- Elements that give a result still give one, and the added elements only add results. -/
theorem sublistForall₂_filterMap
    (each : ∀ element ∈ elements, element.KeepsResult more before after content position) :
    List.SublistForall₂ (AreFromOne elements before after) (elements.filterMap before)
      ((elements ++ more).filterMap after) := by
  -- The relation names the whole extract, so the induction is on a part of it.
  suffices part : ∀ front, (∀ element ∈ front, element ∈ elements) →
      List.SublistForall₂ (AreFromOne elements before after) (front.filterMap before)
        ((front ++ more).filterMap after) from part elements fun _ => id
  intro front inside
  induction front with
  | nil => exact .nil
  | cons element rest inductionHypothesis =>
      obtain ⟨member, others⟩ := List.forall_mem_cons.1 inside
      have further := inductionHypothesis others
      rw [List.cons_append]
      cases found : before element with
      | some result =>
          obtain ⟨again, still, _⟩ := each element member result found
          rw [List.filterMap_cons_some found, List.filterMap_cons_some still]
          exact .cons ⟨element, member, found, still⟩ further
      | none =>
          rw [List.filterMap_cons_none found]
          cases added : after element with
          | none =>
              rw [List.filterMap_cons_none added]
              exact further
          | some again =>
              rw [List.filterMap_cons_some added]
              exact .cons_right further

end Results

section Places

variable {element : Element} {elements more : List Element} {position : Position}

/-- More elements make no node unknown. -/
theorem PointIndex.isSome_get?_append {id : ElementId}
    (known : ((ofElements elements).get? id).isSome = true) :
    ((ofElements (elements ++ more)).get? id).isSome = true := by
  rw [get?_ofElements_append, Option.isSome_or, known, Bool.or_true]

/-- More elements take no place away. -/
theorem Element.isSome_place?_append (more : List Element)
    (placed : (element.place? (.ofElements elements)).isSome = true) :
    (element.place? (.ofElements (elements ++ more))).isSome = true := by
  rw [isSome_place?] at placed ⊢
  cases shape : element.geometry with
  | point own => rfl
  | path references =>
      rw [shape] at placed
      obtain ⟨id, member, found⟩ := List.any_eq_true.1 placed
      exact List.any_eq_true.2 ⟨id, member, PointIndex.isSome_get?_append found⟩
  | absent =>
      rw [shape] at placed
      cases placed

/-- Elements that are not referred to do not move a place. -/
theorem Element.place?_append_of_unrelated (unrelated : ¬ element.RefersTo more) :
    element.place? (.ofElements (elements ++ more)) = element.place? (.ofElements elements) := by
  apply place?_congr
  intro id refers
  have unknown : (PointIndex.ofElements more).get? id = none :=
    PointIndex.get?_ofElements_eq_none_iff.2 fun node member indexed isTarget =>
      unrelated ⟨id, refers, node, member, indexed, isTarget⟩
  rw [PointIndex.get?_ofElements_append, unknown, Option.none_or]

/-- A place is never lost, and only an added node that is referred to moves it. -/
theorem Element.exists_place?_append (more : List Element)
    (placed : element.place? (.ofElements elements) = some position) :
    ∃ later, element.place? (.ofElements (elements ++ more)) = some later ∧
      (¬ element.RefersTo more → later = position) := by
  obtain ⟨later, found⟩ := Option.isSome_iff_exists.1
    (isSome_place?_append more (Option.isSome_of_eq_some placed))
  refine ⟨later, found, fun unrelated => ?_⟩
  rw [place?_append_of_unrelated unrelated, placed] at found
  exact (Option.some.inj found).symm

variable (element elements more)

/-- The record of an element stays when more elements come, and only its position can move. -/
theorem Element.keepsResult_record? :
    element.KeepsResult more (record? (.ofElements elements))
      (record? (.ofElements (elements ++ more))) Record.content Record.position := by
  intro record found
  obtain ⟨tagged, position, placed, rfl⟩ := record?_eq_some_iff.1 found
  obtain ⟨later, again, unmoved⟩ := exists_place?_append more placed
  exact ⟨_, record?_eq_some_iff.2 ⟨tagged, later, again, rfl⟩, rfl, unmoved⟩

/-- The feature of an element stays when more elements come, and only its position can move. -/
theorem Element.keepsResult_feature? (vocabulary : Vocabulary) :
    element.KeepsResult more (fun element => element.feature? vocabulary (.ofElements elements))
      (fun element => element.feature? vocabulary (.ofElements (elements ++ more)))
      Feature.content Feature.position := by
  intro feature found
  dsimp only at found ⊢
  rw [feature?_eq] at found
  obtain ⟨character, stray, shown⟩ := Option.bind_eq_some_iff.1 found
  obtain ⟨position, placed, rfl⟩ := Option.map_eq_some_iff.1 shown
  obtain ⟨later, again, unmoved⟩ := exists_place?_append more placed
  refine ⟨element.feature later character, ?_, rfl, unmoved⟩
  rw [feature?_eq, stray, Option.bind_some, again, Option.map_some]

end Places

/--
Elements added behind an extract take no record and no feature away from it, whatever the vocabulary.
A position changes only where its element refers to an added node.
-/
theorem Pipeline.stages_keepResults (elements more : List Element) :
    let whole := elements ++ more
    let index := PointIndex.ofElements elements
    let longer := PointIndex.ofElements whole
    KeepsResults elements more (Element.record? index) (Element.record? longer) Record.content
      Record.position (Reduction.recordsOf elements index) (Reduction.recordsOf whole longer) ∧
    ∀ tally : Tally,
      KeepsResults elements more (fun element => element.feature? tally.vocabulary index)
        (fun element => element.feature? tally.vocabulary longer) Feature.content Feature.position
        (Audit.ofElements elements index tally).features.toList
        (Audit.ofElements whole longer tally).features.toList := by
  intro whole index longer
  constructor
  · have each (element : Element) (_ : element ∈ elements) :=
      element.keepsResult_record? elements more
    apply KeepsResults.ofAligned each
    rw [Reduction.recordsOf, Reduction.recordsOf, Reduction.records_ofElements,
      Reduction.records_ofElements]
    refine StableSort.sublistForall₂_mergeSort ?_ (StableSort.isOrder_byId Record.id)
      (sublistForall₂_filterMap each)
    -- Both records of an element have its identifier, so they are sorted alike.
    rintro first second firstAgain secondAgain ⟨_, _, firstFound, firstStill⟩
      ⟨_, _, secondFound, secondStill⟩
    rw [Element.id_of_record? firstFound, Element.id_of_record? firstStill,
      Element.id_of_record? secondFound, Element.id_of_record? secondStill]
  · intro tally
    have each (element : Element) (_ : element ∈ elements) :=
      element.keepsResult_feature? elements more tally.vocabulary
    apply KeepsResults.ofAligned each
    rw [Audit.features_ofElements, Audit.features_ofElements]
    exact sublistForall₂_filterMap each

end LightList
