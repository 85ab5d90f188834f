/-
This file says which features an audit gives and what it counts, element by element.
-/

import LightList.Audit
import LightList.Proofs.TallyRun

namespace LightList

/-- This is the feature that an audit makes of an element, if it makes one. -/
def Element.feature? (element : Element) (vocabulary : Vocabulary) (index : PointIndex) :
    Option Feature :=
  match element.tags.light? "character" with
  | none => none
  | some character =>
      if vocabulary.contains character then none
      else (element.place? index).map fun position => element.feature position character

namespace Audit

variable (index : PointIndex)

/-- One step adds the feature of its element and counts its character. -/
theorem visit_eq (audit : Audit) (element : Element) :
    (visit index audit element).features.toList =
        audit.features.toList ++ (element.feature? audit.tally.vocabulary index).toList ∧
      (visit index audit element).tally =
        audit.tally.run (element.tags.light? "character").toList := by
  unfold visit Element.feature?
  cases element.tags.light? "character" with
  | none => exact ⟨(List.append_nil _).symm, rfl⟩
  | some character =>
      cases known : audit.tally.vocabulary.contains character with
      | true =>
          dsimp only
          rw [Tally.classify_conforming known]
          simp [Tally.run, Tally.classify_conforming known, known]
      | false =>
          have verdict : audit.tally.classify character =
              (.nonConforming ((audit.tally.classify character).2.countAt
                (audit.tally.enter character).1), (audit.tally.classify character).2) := by
            simp [Tally.classify, known]
          dsimp only
          rw [verdict]
          cases element.place? index with
          | none => simp [Tally.run]
          | some position => simp [Tally.run, known]

/-- An audit goes on from any tally: it adds the features of the elements in their order. -/
theorem foldl_visit (elements : List Element) (audit : Audit) :
    (elements.foldl (visit index) audit).features.toList =
        audit.features.toList ++
          elements.filterMap (fun element => element.feature? audit.tally.vocabulary index) ∧
      (elements.foldl (visit index) audit).tally =
        audit.tally.run (elements.filterMap fun element => element.tags.light? "character") := by
  induction elements generalizing audit with
  | nil => exact ⟨(List.append_nil _).symm, rfl⟩
  | cons element rest inductionHypothesis =>
      obtain ⟨features, tally⟩ := visit_eq index audit element
      obtain ⟨laterFeatures, laterTally⟩ := inductionHypothesis (visit index audit element)
      rw [List.foldl_cons, laterFeatures, laterTally, features, tally, Tally.vocabulary_run]
      constructor
      · rw [List.append_assoc, List.filterMap_cons]
        congr 1
        cases element.feature? audit.tally.vocabulary index with
        | none => rfl
        | some feature => rfl
      · rw [List.filterMap_cons, Tally.run, Tally.run, ← List.foldl_append, Tally.run]
        congr 1
        cases element.tags.light? "character" with
        | none => rfl
        | some character => rfl

/-- The features are those of the single elements, in their order. -/
theorem features_ofElements (elements : List Element) (index : PointIndex) (tally : Tally) :
    (ofElements elements index tally).features.toList =
      elements.filterMap fun element => element.feature? tally.vocabulary index := by
  rw [ofElements, (foldl_visit index elements _).1]
  rfl

/-- The tally has met the character of every light, in the order of the elements. -/
theorem tally_ofElements (elements : List Element) (index : PointIndex) (tally : Tally) :
    (ofElements elements index tally).tally =
      tally.run (elements.filterMap fun element => element.tags.light? "character") :=
  (foldl_visit index elements (start tally)).2

end Audit

end LightList
