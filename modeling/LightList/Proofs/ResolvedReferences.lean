/-
This file says where an element that lies on references is placed: on the mean of those that the
index knows, taken from left to right.

Nothing else of the index matters and nothing else of the references, so the place is the same bit
for bit when unknown references come or go, or when the index changes elsewhere.
-/

import LightList.Proofs.FinitePlaces
import LightList.Proofs.LongerExtract

namespace LightList

namespace PointIndex

variable (index : PointIndex)

def knows (id : ElementId) : Bool := (index.get? id).isSome

/-- These are the references that the index knows, each as often as it occurs. -/
def known (references : List ElementId) : List ElementId := references.filter index.knows

/-- One coordinate is summed up along the references, and unknown ones are passed over. -/
def totalOf (coordinate : Position → Float) (references : List ElementId) : Float :=
  references.foldl (fun total id =>
    match index.get? id with
    | some position => total + coordinate position
    | none => total) 0

/-- Each coordinate is divided by the number of the known references. -/
def meanOf (references : List ElementId) : Position :=
  let count := Float.ofNat (references.countP index.knows)
  ⟨index.totalOf Position.lon references / count, index.totalOf Position.lat references / count⟩

variable (references : List ElementId)

/-- The total adds the coordinates of the known references in their order. -/
theorem totalOf_eq (coordinate : Position → Float) :
    index.totalOf coordinate references =
      ((index.positionsOf references).map coordinate).foldl (· + ·) 0 := by
  rw [List.foldl_map, positionsOf, List.foldl_filterMap, totalOf]
  congr 1
  funext total id
  cases index.get? id <;> rfl

/-- There is one position for each known reference. -/
theorem length_positionsOf :
    (index.positionsOf references).length = references.countP index.knows :=
  List.length_filterMap_eq_countP

/-- Unknown references leave no trace in the positions. -/
theorem positionsOf_known :
    index.positionsOf (index.known references) = index.positionsOf references := by
  rw [positionsOf, known, List.filterMap_filter, positionsOf]
  congr 1
  funext id
  unfold knows
  cases index.get? id <;> rfl

/-- The mean is there exactly if some reference is known. -/
theorem mean?_positionsOf :
    Position.mean? (index.positionsOf references) =
      if references.any index.knows then some (index.meanOf references) else none := by
  have counted := index.length_positionsOf references
  cases known : references.any index.knows with
  | true =>
      have positive : 0 < references.countP index.knows :=
        List.countP_pos_iff.2 (List.any_eq_true.1 known)
      have notEmpty : index.positionsOf references ≠ [] := by
        rw [← List.length_pos_iff, counted]
        exact positive
      simp [Position.mean?, notEmpty, meanOf, totalOf_eq, Position.sum_eq, counted]
  | false =>
      have none : index.positionsOf references = [] := by
        rw [← List.length_eq_zero_iff, counted, List.countP_eq_zero]
        simpa using known
      simp [Position.mean?, none]

end PointIndex

namespace Geometry

variable {index other : PointIndex} {references others : List ElementId}

/-- Only the known references decide where a path is placed. -/
theorem place?_path_of_known (same : index.known references = index.known others) :
    (path references).place? index = (path others).place? index := by
  simp only [place?]
  rw [← index.positionsOf_known references, same, index.positionsOf_known]

/-- A path has no place exactly if none of its references is known. -/
theorem place?_path_eq_none_iff :
    (path references).place? index = none ↔ ∀ id ∈ references, index.get? id = none := by
  simp [place?, PointIndex.mean?_positionsOf, PointIndex.knows]

/-- A path is placed at the mean of its known references. -/
theorem place?_path_eq_some_iff {mean : Position} :
    (path references).place? index = some mean ↔
      (∃ id ∈ references, index.knows id = true) ∧ mean = index.meanOf references := by
  simp [place?, PointIndex.mean?_positionsOf, @eq_comm _ mean]

end Geometry

/--
An element keeps its own position whatever the index says. One that lies on references is placed when
one of them is known, and then on the mean of the known ones in their order, so it does not matter
which other references there are and what else the index holds. A larger index places no less.
-/
theorem Element.place?_exact (element : Element) (index : PointIndex) :
    (∀ position, element.geometry = .point position → element.place? index = some position) ∧
    (element.geometry = .absent → element.place? index = none) ∧
    (∀ references, element.geometry = .path references →
      (element.place? index = none ↔ ∀ id ∈ references, index.get? id = none) ∧
      (∀ mean, element.place? index = some mean ↔
        (∃ id ∈ references, index.knows id = true) ∧ mean = index.meanOf references) ∧
      ∀ others, index.known others = index.known references →
        { element with geometry := .path others }.place? index = element.place? index) ∧
    (∀ front unknown back, (∀ id ∈ unknown, index.get? id = none) →
      { element with geometry := .path (front ++ unknown ++ back) }.place? index =
        { element with geometry := .path (front ++ back) }.place? index) ∧
    ∀ other : PointIndex,
      ((∀ id ∈ element.geometry.references, other.get? id = index.get? id) →
        element.place? other = element.place? index) ∧
      ((∀ id ∈ element.geometry.references, index.knows id = true → other.knows id = true) →
        (element.place? index).isSome = true → (element.place? other).isSome = true) := by
  refine ⟨?_, ?_, ?_, ?_, ?_⟩
  · intro position isPoint
    simp [place?, Geometry.place?, isPoint]
  · intro absent
    simp [place?, Geometry.place?, absent]
  · intro references isPath
    rw [place?, isPath]
    exact ⟨Geometry.place?_path_eq_none_iff, fun _ => Geometry.place?_path_eq_some_iff,
      fun _ same => Geometry.place?_path_of_known same⟩
  · intro front unknown back absent
    apply Geometry.place?_path_of_known
    have dropped : index.known unknown = [] := by
      simpa [PointIndex.known, PointIndex.knows] using absent
    simp only [PointIndex.known, List.filter_append] at dropped ⊢
    rw [dropped, List.append_nil]
  · intro other
    refine ⟨place?_congr, fun more placed => ?_⟩
    rw [isSome_place?] at placed ⊢
    cases shape : element.geometry with
    | point position => rfl
    | path references =>
        rw [shape] at placed more
        obtain ⟨id, member, known⟩ := List.any_eq_true.1 placed
        exact List.any_eq_true.2 ⟨id, member, more id member known⟩
    | absent =>
        rw [shape] at placed
        cases placed

def charted : List (ElementId × Position) := [(3, ⟨0.3, 0.9⟩), (2, ⟨0.2, 0.3⟩), (1, ⟨0.1, 0.7⟩)]

def buoys : List Element := charted.reverse.map fun entry => .node entry.1 entry.2 .empty

/-- Two references are unknown, and one that is known comes twice. -/
def fairway : Element := .way 10 [7, 2, 1, 8, 2, 3] .empty

theorem meanOf_charted {index : PointIndex} (found : ∀ id, index.get? id = charted.lookup id) :
    index.get? 7 = none ∧ index.knows 2 = true ∧
      index.meanOf [7, 2, 1, 8, 2, 3] =
        ⟨(0 + 0.2 + 0.1 + 0.2 + 0.3) / 4, (0 + 0.3 + 0.7 + 0.3 + 0.9) / 4⟩ := by
  have knows : index.knows = fun id => (charted.lookup id).isSome := by
    funext id
    rw [PointIndex.knows, found]
  simp only [PointIndex.meanOf, PointIndex.totalOf, knows, found]
  decide +kernel

/-- Two references of the fairway are unknown, and one is used twice. -/
theorem Element.place?_exact_fairway :
    let index := PointIndex.ofElements buoys
    let larger := PointIndex.ofElements (buoys ++ [.node 8 ⟨5, 5⟩ .empty])
    (∀ id ∈ [7], index.get? id = none) ∧
    fairway.place? index =
      some ⟨(0 + 0.2 + 0.1 + 0.2 + 0.3) / 4, (0 + 0.3 + 0.7 + 0.3 + 0.9) / 4⟩ ∧
    (Element.way 10 [2, 1, 8, 2, 3] .empty).place? index = fairway.place? index ∧
    (fairway.place? larger).isSome = true := by
  intro index larger
  obtain ⟨unknown, known, mean⟩ := meanOf_charted (PointIndex.get?_ofElements buoys)
  obtain ⟨_, _, onPath, inserted, others⟩ := Element.place?_exact fairway index
  have placed : fairway.place? index = _ :=
    ((onPath _ rfl).2.1 _).2 ⟨⟨2, by simp, known⟩, mean.symm⟩
  have absent : ∀ id ∈ [7], index.get? id = none := List.forall_mem_singleton.2 unknown
  refine ⟨absent, placed, (inserted [] [7] [2, 1, 8, 2, 3] absent).symm, ?_⟩
  apply (others larger).2
  · intro id _ isKnown
    exact PointIndex.isSome_get?_append isKnown
  · rw [placed, Option.isSome_some]

end LightList
