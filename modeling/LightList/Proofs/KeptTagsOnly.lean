/-
This file shows that only kept tags can influence what a pipeline puts out.

Each step gives the same for an element as for its copy without the other tags, and so does the
whole run. Extracts with the same copies can therefore not be told apart.
-/

import LightList.Pipeline
import LightList.Proofs.TagLookup
import Mathlib.Data.List.Forall2

namespace LightList

namespace Tags

/-- The kept keys are the plain name and all that start with the prefix of the namespace. -/
theorem keeps_iff (key : String) :
    keeps key = true ↔ key = "name" ∨ ∃ rest, key = "seamark:" ++ rest := by
  rw [keeps, Bool.or_eq_true, beq_iff_eq, List.isPrefixOf_iff_prefix]
  apply or_congr_right
  constructor
  · rintro ⟨rest, same⟩
    exact ⟨String.ofList rest, by rw [← String.toList_inj, String.toList_append, ← same]; simp⟩
  · rintro ⟨rest, rfl⟩
    rw [String.toList_append]
    exact List.prefix_append _ _

/-- Filtering twice leaves no less than filtering once. -/
theorem filterKeys_filterKeys (tags : Tags) (test : String → Bool) :
    (tags.filterKeys test).filterKeys test = tags.filterKeys test := by
  apply ext_entries
  simp [filterKeys]

end Tags

namespace Element

/-- This is the element with its kept tags alone. -/
def reduced (element : Element) : Element :=
  { element with tags := element.tags.filterKeys Tags.keeps }

/-- Two elements agree on what is kept; their other tags may differ in any way. -/
structure AgreesOnKept (first second : Element) : Prop where
  kind : first.kind = second.kind
  id : first.id = second.id
  geometry : first.geometry = second.geometry
  name : first.tags.get? "name" = second.tags.get? "name"
  seamark (rest : String) :
    first.tags.get? ("seamark:" ++ rest) = second.tags.get? ("seamark:" ++ rest)

/-- Elements that agree on what is kept are reduced to the same one. -/
theorem AgreesOnKept.reduced_eq {first second : Element} (agrees : first.AgreesOnKept second) :
    first.reduced = second.reduced := by
  have tags : first.tags.filterKeys Tags.keeps = second.tags.filterKeys Tags.keeps := by
    apply Tags.ext_entries
    apply Keyed.eq_of_lookup (first.tags.filterKeys _).ascending
      (second.tags.filterKeys _).ascending
    intro key
    change (first.tags.filterKeys _).get? key = (second.tags.filterKeys _).get? key
    rw [Tags.get?_filterKeys, Tags.get?_filterKeys]
    split
    · next kept =>
        rcases (Tags.keeps_iff key).1 kept with rfl | ⟨rest, rfl⟩
        · exact agrees.name
        · exact agrees.seamark rest
    · rfl
  rw [reduced, reduced, tags, agrees.kind, agrees.id, agrees.geometry]

/-- Equal kept tags agree on every kept key. -/
theorem AgreesOnKept.ofTags {kind : Kind} {id : ElementId} {geometry : Geometry}
    {first second : Tags} (same : first.filterKeys Tags.keeps = second.filterKeys Tags.keeps) :
    AgreesOnKept ⟨kind, id, first, geometry⟩ ⟨kind, id, second, geometry⟩ := by
  have found (key : String) (kept : Tags.keeps key = true) : first.get? key = second.get? key := by
    have both := congrArg (fun tags => tags.get? key) same
    simpa only [Tags.get?_filterKeys, if_pos kept] using both
  constructor
  · rfl
  · rfl
  · rfl
  · exact found "name" ((Tags.keeps_iff _).2 (.inl rfl))
  · intro rest
    exact found _ ((Tags.keeps_iff _).2 (.inr ⟨rest, rfl⟩))

/-- An element has the fate of its reduced form. -/
theorem fate_reduced (element : Element) (index : PointIndex) :
    element.reduced.fate index = element.fate index := by
  have kept : element.reduced.tags.kept? = element.tags.kept? := by
    unfold Tags.kept?
    rw [reduced, Tags.filterKeys_filterKeys]
  unfold fate
  rw [kept]
  rfl

/-- A feature reads only tags that are kept. -/
theorem feature_reduced (element : Element) (position : Position) (character : String) :
    element.reduced.feature position character = element.feature position character := by
  simp [feature, reduced, Tags.light?_filterKeys, Tags.name?_filterKeys]

end Element

/-- The index does not look at tags. -/
theorem PointIndex.ofElements_reduced (elements : List Element) :
    ofElements (elements.map Element.reduced) = ofElements elements :=
  List.foldl_map

/-- The reduction looks only at tags that are kept. -/
theorem Reduction.ofElements_reduced (elements : List Element) (index : PointIndex) :
    ofElements (elements.map Element.reduced) index = ofElements elements index := by
  unfold ofElements
  simp only [List.map_map, Function.comp_def, Element.fate_reduced, List.length_map]

namespace Audit

/-- The audit looks only at tags that are kept. -/
theorem visit_reduced (index : PointIndex) (audit : Audit) (element : Element) :
    visit index audit element.reduced = visit index audit element := by
  unfold visit
  simp only [Element.feature_reduced]
  rw [show element.reduced.tags.light? "character" = _ from Tags.light?_filterKeys element.tags _]
  rfl

/-- A whole audit looks only at tags that are kept. -/
theorem ofElements_reduced (elements : List Element) (index : PointIndex) (tally : Tally) :
    ofElements (elements.map Element.reduced) index tally = ofElements elements index tally := by
  unfold ofElements
  simp only [List.foldl_map, visit_reduced]

end Audit

namespace Pipeline

/-- No output of a pipeline depends on a tag that is not kept. -/
theorem run_eq_of_agreesOnKept {elements others : List Element}
    (agree : List.Forall₂ Element.AgreesOnKept elements others) (vocabulary : Vocabulary) :
    let first := run elements vocabulary
    let second := run others vocabulary
    second.reducedText = first.reducedText ∧ second.reduction = first.reduction ∧
      second.auditText = first.auditText ∧ second.audit = first.audit ∧
      second.audit.tally.report = first.audit.tally.report ∧
      second.audit.tally.total = first.audit.tally.total ∧ second.notices = first.notices := by
  intro first second
  have same : elements.map Element.reduced = others.map Element.reduced := by
    induction agree with
    | nil => rfl
    | cons agrees _ inductionHypothesis =>
        rw [List.map_cons, List.map_cons, agrees.reduced_eq, inductionHypothesis]
  have index : PointIndex.ofElements others = PointIndex.ofElements elements := by
    rw [← PointIndex.ofElements_reduced, ← same, PointIndex.ofElements_reduced]
  have reduction : second.reduction = first.reduction := by
    change Reduction.ofElements others _ = Reduction.ofElements elements _
    rw [index, ← Reduction.ofElements_reduced, ← same, Reduction.ofElements_reduced]
  have audit : second.audit = first.audit := by
    change Audit.ofElements others _ _ = Audit.ofElements elements _ _
    rw [index, ← Audit.ofElements_reduced, ← same, Audit.ofElements_reduced]
  refine ⟨?_, reduction, ?_, audit, ?_, ?_, ?_⟩
  · rw [reducedText, reduction, reducedText]
  · rw [auditText, audit, auditText]
  · rw [audit]
  · rw [audit]
  · rw [notices, reduction, audit, notices]

/-- The second extract differs in a tag of a light and in one of an element without kept tags. -/
def extractAndDisguise : List Element × List Element :=
  ([.node 7 ⟨20.5, 10⟩ (.ofList [("seamark:light:character", "Fl.Grp"), ("building", "yes")]),
      .way 8 [7] .empty],
    [.node 7 ⟨20.5, 10⟩ (.ofList [("Name", "x"), ("seamark:light:character", "Fl.Grp")]),
      .way 8 [7] (.ofList [("seamark", "no"), ("highway", "steps")])])

/-- The second extract has other tags beside the kept ones, and the same outputs. -/
theorem run_eq_of_agreesOnKept_disguised :
    List.Forall₂ Element.AgreesOnKept extractAndDisguise.1 extractAndDisguise.2 ∧
      (run extractAndDisguise.2 .lightCharacters).reducedText =
        (run extractAndDisguise.1 .lightCharacters).reducedText ∧
      (run extractAndDisguise.2 .lightCharacters).auditText =
        (run extractAndDisguise.1 .lightCharacters).auditText := by
  have agree : List.Forall₂ Element.AgreesOnKept extractAndDisguise.1 extractAndDisguise.2 :=
    .cons (.ofTags (by decide +kernel)) (.cons (.ofTags (by decide +kernel)) .nil)
  have outputs := run_eq_of_agreesOnKept agree .lightCharacters
  exact ⟨agree, outputs.1, outputs.2.2.1⟩

end Pipeline

end LightList
