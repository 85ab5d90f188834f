/-
This file shows that auditing the reduced dataset gives the audit of the full one.

Reduction keeps every key that an attribute of a light can stand on, so no element with a character
is dropped for want of tags, and the records give the same features, sorted like the records.
-/

import LightList.Proofs.AuditFeatures
import LightList.Proofs.StableSort
import LightList.Reduction

namespace LightList

/-- An element without kept tags has no character, since a character is itself kept. -/
theorem Tags.light?_of_kept?_none {tags : Tags} (property : String) (dropped : tags.kept? = none) :
    tags.light? property = none := by
  have nothing : tags.filterKeys Tags.keeps = .empty := by
    unfold Tags.kept? at dropped
    split at dropped
    · next isEmpty => exact Tags.ext_entries (List.isEmpty_iff.1 isEmpty)
    · cases dropped
  rw [← Tags.light?_filterKeys, nothing]
  rfl

/-- What is kept of the tags is what the filter leaves. -/
theorem Tags.kept?_eq_some {tags kept : Tags} (found : tags.kept? = some kept) :
    kept = tags.filterKeys Tags.keeps := by
  unfold Tags.kept? at found
  split at found
  · cases found
  · cases found
    rfl

/-- The record of an element gives the feature of the element, whatever index is at hand. -/
theorem Element.feature?_of_record (element : Element) (vocabulary : Vocabulary)
    (index other : PointIndex) :
    ((element.fate index).record?.bind fun record => record.element.feature? vocabulary other) =
      element.feature? vocabulary index := by
  unfold Element.fate
  cases kept : element.tags.kept? with
  | none =>
      have dark := Tags.light?_of_kept?_none "character" kept
      simp [Fate.record?, Element.feature?, dark]
  | some tags =>
      cases Tags.kept?_eq_some kept
      cases placed : element.place? index with
      | none =>
          simp only [Fate.record?, Element.feature?, placed]
          split
          · rfl
          · simp
      | some position =>
          simp only [Fate.record?, Option.bind_some, Element.feature?, Record.element,
            Element.node, Tags.light?_filterKeys, placed]
          cases element.tags.light? "character" with
          | none => rfl
          | some character =>
              simp [Element.place?, Geometry.place?, Element.feature, Tags.light?_filterKeys,
                Tags.name?_filterKeys]

/-- A record sorts like the feature that it gives. -/
theorem Element.id_of_feature? {element : Element} {vocabulary : Vocabulary} {index : PointIndex}
    {feature : Feature} (found : element.feature? vocabulary index = some feature) :
    feature.id = element.id := by
  unfold Element.feature? at found
  split at found
  · cases found
  · split at found
    · cases found
    · obtain ⟨position, _, rfl⟩ := Option.map_eq_some_iff.1 found
      rfl

namespace Audit

/-- The features of the records are those of the elements, sorted. -/
theorem features_of_records (elements : List Element) (index other : PointIndex)
    (vocabulary : Vocabulary) :
    ((Reduction.recordsOf elements index).map Record.element).filterMap
        (fun element => element.feature? vocabulary other) =
      (elements.filterMap fun element => element.feature? vocabulary index).mergeSort
        fun first second => decide (first.id ≤ second.id) := by
  have keeps {first second : Record} {firstFeature secondFeature : Feature}
      (firstFound : first.element.feature? vocabulary other = some firstFeature)
      (secondFound : second.element.feature? vocabulary other = some secondFeature) :
      decide (firstFeature.id ≤ secondFeature.id) = decide (first.id ≤ second.id) := by
    rw [Element.id_of_feature? firstFound, Element.id_of_feature? secondFound]
    rfl
  have sorts := StableSort.filterMap_mergeSort (StableSort.isOrder_byId Record.id)
    (StableSort.isOrder_byId Feature.id) keeps
    ((elements.map fun element => element.fate index).filterMap Fate.record?)
  rw [List.filterMap_map]
  apply sorts.trans
  congr 1
  rw [List.filterMap_map, List.filterMap_filterMap]
  congr 1
  funext element
  exact element.feature?_of_record vocabulary index other

/-- Elements that carry a position lose no character for want of a place. -/
theorem characters_of_features (vocabulary : Vocabulary) {elements : List Element}
    {index : PointIndex} (placed : ∀ element ∈ elements, (element.place? index).isSome = true) :
    (elements.filterMap fun element => element.feature? vocabulary index).map Feature.character =
      (elements.filterMap fun element => element.tags.light? "character").filter
        fun character => !vocabulary.contains character := by
  induction elements with
  | nil => rfl
  | cons element rest inductionHypothesis =>
      have later := inductionHypothesis fun other member => placed other (List.mem_cons_of_mem _ member)
      obtain ⟨position, found⟩ := Option.isSome_iff_exists.1 (placed element List.mem_cons_self)
      rw [List.filterMap_cons, List.filterMap_cons]
      unfold Element.feature? at later ⊢
      cases element.tags.light? "character" with
      | none => exact later
      | some character =>
          cases known : vocabulary.contains character with
          | true => simpa [known] using later
          | false => simpa [known, found, Element.feature] using later

/--
Auditing the nodes that stand for the records gives the features of the full audit, sorted by
identifier, and the tally counts exactly the characters of these features.
-/
theorem ofElements_records (elements : List Element) (index other : PointIndex)
    (vocabulary : Vocabulary) :
    let nodes := (Reduction.recordsOf elements index).map Record.element
    let audit := ofElements nodes other (.new vocabulary)
    audit.features.toList =
        (ofElements elements index (.new vocabulary)).features.toList.mergeSort
          (fun first second => decide (first.id ≤ second.id)) ∧
      (audit.tally.report.map Prod.fst).Nodup ∧
      (∀ value count, (value, count) ∈ audit.tally.report ↔
        0 < count ∧ audit.features.toList.countP (fun feature => feature.character == value) = count) ∧
      audit.tally.total = audit.features.size := by
  intro nodes audit
  have features : audit.features.toList =
      nodes.filterMap fun element => element.feature? vocabulary other :=
    features_ofElements nodes other _
  have placed : ∀ node ∈ nodes, (node.place? other).isSome = true := by
    intro node member
    obtain ⟨record, _, rfl⟩ := List.mem_map.1 member
    rfl
  have fresh := Tally.consistent_new vocabulary
  have consistent : Tally.Consistent audit.tally := by
    rw [show audit.tally = _ from tally_ofElements nodes other _]
    exact Tally.consistent_run fresh _
  have characters := characters_of_features vocabulary placed
  rw [← features] at characters
  refine ⟨?_, Tally.nodup_report consistent, ?_, ?_⟩
  · rw [features, features_of_records, features_ofElements]
    rfl
  · intro value count
    rw [Tally.mem_report consistent, show audit.tally = _ from tally_ofElements nodes other _,
      Tally.countOf_run fresh]
    have counts : audit.features.toList.countP (fun feature => feature.character == value) =
        (audit.features.toList.map Feature.character).count value := by
      rw [List.count, List.countP_map]
      rfl
    rw [counts, characters]
    simp [Tally.countOf, Tally.new]
  · rw [show audit.tally = _ from tally_ofElements nodes other _, Tally.total_run fresh]
    have lengths := congrArg List.length characters
    rw [List.length_map, Array.length_toList] at lengths
    rw [lengths]
    simp [Tally.total, Tally.new]

end Audit

end LightList
