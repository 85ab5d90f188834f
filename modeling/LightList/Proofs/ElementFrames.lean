/-
This file says what becomes of an element, and of the document around it, when its identifier or its
references are exchanged.
-/

import LightList.Proofs.Json.Frames
import LightList.Proofs.OverpassFormat
import Mathlib.Data.List.Basic

namespace LightList.Overpass

open Json Json.Written Json.Reader

/-- These are the fields of a list that follow the identifier. -/
def takeLater (kind : Kind) (id : ElementId) : Taking Element := do
  let lat ← takeItem (orNull? float?)
  let lon ← takeItem (orNull? float?)
  let references ← takeItem references?
  let tags ← takeItemOr (orNull? tags?) none
  return described kind id lat lon references tags

/-- The later fields do not depend on the identifier. -/
theorem takeLater_exchange (kind : Kind) (id other : ElementId) :
    takeLater kind other = takeLater kind id >>= fun element => pure { element with id := other } := by
  simp only [takeLater, bind_assoc, pure_bind]
  rfl

section Frames

variable {frame : Frame} {tree : Written}

/-- Another id in the same document changes only the id of the element. -/
theorem element?_plug_id (isAt : frame.IsAt 1) {element : Element}
    (found : element? (frame.plug "id" tree) = some element) (other : Written) :
    element? (frame.plug "id" other) =
      (int64? other).map fun id => { element with id } := by
  cases frame with
  | object front back =>
      have notKind : "id" ≠ "type" := by decide
      have notLat : "id" ≠ "lat" := by decide
      have notLon : "id" ≠ "lon" := by decide
      have notNodes : "id" ≠ "nodes" := by decide
      have notTags : "id" ≠ "tags" := by decide
      change elementOfMembers? _ = _ at found
      change elementOfMembers? _ = _
      simp only [elementOfMembers?, Option.bind_eq_bind, Option.bind_eq_some_iff,
        field?_plug_of_ne notKind, field?_plug_of_ne notLat, field?_plug_of_ne notLon,
        field?_plug_of_ne notNodes, field?_plug_of_ne notTags] at found ⊢
      obtain ⟨_, kindField, _, idField, _, latField, _, lonField, _, nodesField, _, tagsField,
        kind, rfl, id, rfl, same⟩ := found
      cases same
      obtain ⟨_, _, same, exchanged⟩ := field?_plug idField
      cases same
      rw [kindField, exchanged other, latField, lonField, nodesField, tagsField]
      cases int64? other with
      | none => rfl
      | some id => rfl
  | list front back =>
      obtain ⟨first, rfl⟩ := List.length_eq_one_iff.1 isAt
      change takeAll? takeFields (first :: tree :: back) = _ at found
      change takeAll? takeFields (first :: other :: back) = _
      rw [takeFields, takeAll?_takeItem_bind] at found ⊢
      obtain ⟨kind, kindRead, found⟩ := Option.bind_eq_some_iff.1 found
      rw [kindRead, Option.bind_some, takeAll?_takeItem_bind]
      rw [takeAll?_takeItem_bind] at found
      obtain ⟨id, _, found⟩ := Option.bind_eq_some_iff.1 found
      change takeAll? (takeLater kind id) back = _ at found
      cases int64? other with
      | none => rfl
      | some otherId =>
          change takeAll? (takeLater kind otherId) back = _
          rw [takeLater_exchange kind id, takeAll?_bind_pure, found]
          rfl

/-- Whether the references are the place depends on the other fields alone. -/
theorem element?_plug_nodes (isAt : frame.IsAt 4) {element : Element}
    (found : element? (frame.plug "nodes" tree) = some element) :
    ∃ lat lon references, references? tree = some references ∧
      element.geometry = placeOf element.kind lat lon references ∧
      ∀ other, element? (frame.plug "nodes" other) =
        (references? other).map fun references =>
          { element with geometry := placeOf element.kind lat lon references } := by
  cases frame with
  | object front back =>
      have notKind : "nodes" ≠ "type" := by decide
      have notId : "nodes" ≠ "id" := by decide
      have notLat : "nodes" ≠ "lat" := by decide
      have notLon : "nodes" ≠ "lon" := by decide
      have notTags : "nodes" ≠ "tags" := by decide
      change elementOfMembers? _ = _ at found
      change ∃ lat lon references, _ ∧ _ ∧ ∀ other, elementOfMembers? _ = _
      simp only [elementOfMembers?, Option.bind_eq_bind, Option.bind_eq_some_iff,
        field?_plug_of_ne notKind, field?_plug_of_ne notId, field?_plug_of_ne notLat,
        field?_plug_of_ne notLon, field?_plug_of_ne notTags] at found ⊢
      obtain ⟨_, kindField, _, idField, lat, latField, lon, lonField, _, nodesField, tags,
        tagsField, kind, rfl, id, rfl, same⟩ := found
      cases same
      obtain ⟨references, read, rfl, exchanged⟩ := field?_plug nodesField
      refine ⟨lat.join, lon.join, references, read, rfl, ?_⟩
      intro other
      rw [kindField, idField, latField, lonField, exchanged other, tagsField]
      cases references? other with
      | none => rfl
      | some references => rfl
  | list front back =>
      obtain ⟨first, others, rfl⟩ := List.exists_cons_of_length_eq_add_one isAt
      obtain ⟨second, third, fourth, rfl⟩ := List.length_eq_three.1 (Nat.succ.inj isAt)
      change takeAll? takeFields (first :: second :: third :: fourth :: tree :: back) = _ at found
      change ∃ lat lon references, _ ∧ _ ∧ ∀ other,
        takeAll? takeFields (first :: second :: third :: fourth :: other :: back) = _
      simp only [takeFields, takeAll?_takeItem_bind, takeAll?_bind_pure] at found ⊢
      obtain ⟨kind, kindRead, found⟩ := Option.bind_eq_some_iff.1 found
      obtain ⟨id, idRead, found⟩ := Option.bind_eq_some_iff.1 found
      obtain ⟨lat, latRead, found⟩ := Option.bind_eq_some_iff.1 found
      obtain ⟨lon, lonRead, found⟩ := Option.bind_eq_some_iff.1 found
      obtain ⟨references, read, found⟩ := Option.bind_eq_some_iff.1 found
      obtain ⟨tags, tagsRead, rfl⟩ := Option.map_eq_some_iff.1 found
      refine ⟨lat, lon, references, read, rfl, ?_⟩
      intro other
      rw [kindRead, Option.bind_some, idRead, Option.bind_some, latRead, Option.bind_some, lonRead,
        Option.bind_some, tagsRead]
      cases references? other with
      | none => rfl
      | some references => rfl

/-- The elements of a document are those of its list, whatever stands around it. -/
theorem elements?_plug (isAt : frame.IsAt 0) {found : List Element}
    (held : elements? (frame.plug "elements" tree) = some found) :
    listOf? element? tree = some found ∧
      ∀ other, elements? (frame.plug "elements" other) = listOf? element? other := by
  apply record?_plug_only isAt (fun _ => rfl) (fun _ => Option.bind_id_eq_join.symm) _ held
  intro item more
  exact takeAll?_takeItemOr item more (listOf? element?) []

end Frames

/-- This is a document without a field of one of its elements. -/
structure Surroundings where
  root : Frame
  front : List Written
  back : List Written
  element : Frame
  rootAt : root.IsAt 0

namespace Surroundings

variable (surroundings : Surroundings)

def document (name : String) (field : Written) : Written :=
  surroundings.root.plug "elements"
    (.array (surroundings.front ++ surroundings.element.plug name field :: surroundings.back))

/-- Another field changes nothing but the element that has it. -/
theorem elements?_document {name : String} {field : Written} {found : List Element}
    (held : elements? (surroundings.document name field) = some found) :
    ∃ before element after, found = before ++ element :: after ∧
      before.length = surroundings.front.length ∧
      element? (surroundings.element.plug name field) = some element ∧
      ∀ other, elements? (surroundings.document name other) =
        (element? (surroundings.element.plug name other)).map fun element =>
          before ++ element :: after := by
  obtain ⟨listed, exchangedList⟩ := elements?_plug surroundings.rootAt held
  obtain ⟨before, element, after, rfl, sameLength, read, exchanged⟩ := mapM_exchange listed
  refine ⟨before, element, after, rfl, sameLength, read, ?_⟩
  intro other
  rw [document, exchangedList]
  exact exchanged _

end Surroundings

end LightList.Overpass
