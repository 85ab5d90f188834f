/-
This file says which features of a Postpass answer become nodes, which are skipped with a warning, and
which one ends the reading.
-/

import LightList.Proofs.PostpassFormat
import LightList.Proofs.ReductionFates
import Mathlib.Data.List.Forall2

namespace LightList.Postpass

namespace Hit

/-- A usable feature has a geometry with at least two coordinates. -/
def isUsable (hit : Hit) : Bool := 2 ≤ hit.coordinates.length

def Decodes (hit : Hit) : Prop := ∃ tags, decodeTags hit.tags = .ok tags

/-- This is the node of a usable feature whose tags decode. -/
def Gives (hit : Hit) (element : Element) : Prop :=
  ∃ lon lat further tags, hit.coordinates = lon :: lat :: further ∧
    decodeTags hit.tags = .ok tags ∧ element = .node hit.id ⟨lon, lat⟩ tags

/-- Two features differ at most in tags that nobody uses. -/
structure AgreesInUse (first second : Hit) : Prop where
  id : first.id = second.id
  coordinates : first.coordinates = second.coordinates
  tags : first.isUsable = true → first.tags = second.tags

/-- This is the node that the feature becomes, if it becomes one. -/
def node? (hit : Hit) : Option Element :=
  hit.position?.bind fun position =>
    (decodeTags hit.tags).toOption.map fun tags => .node hit.id position tags

end Hit

/-- Every usable feature has tags that decode. -/
def AreSound (hits : List Hit) : Prop := ∀ hit ∈ hits, hit.isUsable = true → hit.Decodes

def warnings (hits : List Hit) : List Notice :=
  (hits.filter fun hit => !hit.isUsable).map fun hit => .featureSkipped hit.id

def nodes (hits : List Hit) : List Element := hits.filterMap Hit.node?

/-- The log tells how many features there are, and warns of each unusable one that was met. -/
def logOf (count : Nat) (met : List Hit) : List LogRecord :=
  ⟨.debug, "seamark::source", s!"{count} features returned"⟩ ::
    (met.filter fun hit => !hit.isUsable).map fun hit =>
      ⟨.warn, "seamark::source", s!"feature {hit.id.toInt}: no point geometry, skipped"⟩

namespace Hit

variable {hit : Hit}

/-- A hit is usable exactly if it has a position. -/
theorem isUsable_iff_exists_position? :
    hit.isUsable = true ↔ ∃ position, hit.position? = some position := by
  obtain ⟨id, tags, coordinates⟩ := hit
  match coordinates with
  | [] => simp [isUsable, position?]
  | [_] => simp [isUsable, position?]
  | _ :: _ :: _ => simp [isUsable, position?]

theorem position?_of_unusable (unusable : hit.isUsable = false) : hit.position? = none := by
  rw [Option.eq_none_iff_forall_ne_some]
  intro position found
  have usable := isUsable_iff_exists_position?.2 ⟨position, found⟩
  rw [unusable] at usable
  cases usable

theorem node?_of_unusable (unusable : hit.isUsable = false) : hit.node? = none := by
  rw [node?, position?_of_unusable unusable, Option.bind_none]

/-- A node has the id, the position and the decoded tags of its hit. -/
theorem gives_of_node? {element : Element} (found : hit.node? = some element) :
    hit.Gives element := by
  obtain ⟨position, placed, found⟩ := Option.bind_eq_some_iff.1 found
  obtain ⟨tags, decoded, same⟩ := Option.map_eq_some_iff.1 found
  unfold position? at placed
  split at placed
  · next lon lat further coordinates =>
      cases placed
      refine ⟨lon, lat, further, tags, coordinates, ?_, same.symm⟩
      cases result : decodeTags hit.tags with
      | error error =>
          rw [result] at decoded
          cases decoded
      | ok value =>
          rw [result] at decoded
          exact congrArg Except.ok (Option.some.inj decoded)
  · cases placed

/-- A usable hit whose tags can be decoded gives a node. -/
theorem exists_node? (usable : hit.isUsable = true) (decodes : hit.Decodes) :
    ∃ element, hit.node? = some element := by
  obtain ⟨position, placed⟩ := isUsable_iff_exists_position?.1 usable
  obtain ⟨tags, decoded⟩ := decodes
  rw [node?, placed, decoded]
  exact ⟨_, rfl⟩

end Hit

section Places

variable {hit : Hit} {hits : List Hit}

theorem warnings_append (first second : List Hit) :
    warnings (first ++ second) = warnings first ++ warnings second := by
  rw [warnings, List.filter_append, List.map_append]
  rfl

theorem nodes_append (first second : List Hit) :
    nodes (first ++ second) = nodes first ++ nodes second :=
  List.filterMap_append

/-- What a sound feature adds to the notices and to the nodes. -/
theorem place_cons (sound : hit.isUsable = true → hit.Decodes) (notices : Array Notice)
    (elements : Array Element) :
    place (hit :: hits) notices elements =
      place hits (notices ++ (warnings [hit]).toArray) (elements ++ (nodes [hit]).toArray) := by
  rw [place]
  cases usable : hit.isUsable with
  | false =>
      rw [Hit.position?_of_unusable usable]
      simp [warnings, nodes, usable, Hit.node?_of_unusable usable]
  | true =>
      obtain ⟨position, placed⟩ := Hit.isUsable_iff_exists_position?.1 usable
      obtain ⟨tags, decoded⟩ := sound usable
      have node : hit.node? = some (.node hit.id position tags) := by
        rw [Hit.node?, placed, decoded]
        rfl
      rw [placed]
      simp [decoded, warnings, nodes, usable, node]

/-- Sound features are gone through one by one. -/
theorem place_append (sound : AreSound hits) (rest : List Hit) (notices : Array Notice)
    (elements : Array Element) :
    place (hits ++ rest) notices elements =
      place rest (notices ++ (warnings hits).toArray) (elements ++ (nodes hits).toArray) := by
  induction hits generalizing notices elements with
  | nil => simp [warnings, nodes]
  | cons hit more inductionHypothesis =>
      have first := warnings_append [hit] more
      have firstNodes := nodes_append [hit] more
      rw [List.singleton_append] at first firstNodes
      rw [List.cons_append, place_cons (sound hit List.mem_cons_self),
        inductionHypothesis fun other member => sound other (List.mem_cons_of_mem hit member),
        first, firstNodes]
      simp

/-- Where all usable features decode, each becomes a node. -/
theorem place_of_areSound (sound : AreSound hits) (count : Nat) :
    place hits #[.featuresReturned count] #[] =
      ⟨.featuresReturned count :: warnings hits, .ok (nodes hits)⟩ := by
  have placed := place_append sound [] #[.featuresReturned count] #[]
  rw [List.append_nil] at placed
  rw [placed, place]
  simp

/-- The first usable feature whose tags do not decode is told, or there is none. -/
theorem areSound_or_exists_spoilt (hits : List Hit) :
    AreSound hits ∨ ∃ before hit after error, hits = before ++ hit :: after ∧ AreSound before ∧
      hit.isUsable = true ∧ decodeTags hit.tags = .error error := by
  induction hits with
  | nil => exact .inl nofun
  | cons hit rest inductionHypothesis =>
      by_cases sound : hit.isUsable = true → hit.Decodes
      · rcases inductionHypothesis with restSound | ⟨before, other, after, error, rfl, earlier, spoilt⟩
        · exact .inl (List.forall_mem_cons.2 ⟨sound, restSound⟩)
        · exact .inr ⟨hit :: before, other, after, error, rfl,
            List.forall_mem_cons.2 ⟨sound, earlier⟩, spoilt⟩
      · obtain ⟨usable, broken⟩ := Classical.not_imp.1 sound
        cases decoded : decodeTags hit.tags with
        | ok tags => exact (broken ⟨tags, decoded⟩).elim
        | error error => exact .inr ⟨[], hit, rest, error, rfl, nofun, usable, decoded⟩

/-- Each usable hit gives one node, in the order of the hits. -/
theorem forall₂_nodes (sound : AreSound hits) :
    List.Forall₂ Hit.Gives (hits.filter Hit.isUsable) (nodes hits) := by
  induction hits with
  | nil => exact .nil
  | cons hit rest inductionHypothesis =>
      have others := inductionHypothesis fun other member =>
        sound other (List.mem_cons_of_mem hit member)
      cases usable : hit.isUsable with
      | false =>
          rw [List.filter_cons_of_neg (by simp [usable]), nodes,
            List.filterMap_cons_none (Hit.node?_of_unusable usable)]
          exact others
      | true =>
          obtain ⟨element, found⟩ := Hit.exists_node? usable (sound hit List.mem_cons_self usable)
          rw [List.filter_cons_of_pos usable, nodes, List.filterMap_cons_some found]
          exact .cons (Hit.gives_of_node? found) others

/-- What a hit that is not usable carries does not matter. -/
theorem place_congr {others : List Hit} (agree : List.Forall₂ Hit.AgreesInUse hits others)
    (notices : Array Notice) (elements : Array Element) :
    place hits notices elements = place others notices elements := by
  induction agree generalizing notices elements with
  | nil => rfl
  | @cons first second rest more here _ inductionHypothesis =>
      have samePosition : first.position? = second.position? := by
        rw [Hit.position?, Hit.position?, here.coordinates]
      rw [place, place, samePosition, here.id]
      cases placed : second.position? with
      | none => exact inductionHypothesis _ _
      | some position =>
          rw [← samePosition] at placed
          rw [here.tags (Hit.isUsable_iff_exists_position?.2 ⟨position, placed⟩)]
          dsimp only
          split
          · rfl
          · exact inductionHypothesis _ _

end Places

section Readings

variable {bytes : List UInt8} {found : List Hit}

/-- The hits of an answer are placed after their count was reported. -/
theorem read_of_hits (held : hits bytes = .ok found) :
    read bytes = place found #[.featuresReturned found.length] #[] := by
  rw [read, held]

/-- Where all tags can be decoded every usable hit gives a node, and the others a warning. -/
theorem read_of_areSound (held : hits bytes = .ok found) (sound : AreSound found) :
    read bytes = ⟨.featuresReturned found.length :: warnings found, .ok (nodes found)⟩ := by
  rw [read_of_hits held, place_of_areSound sound]

/-- Otherwise the first one that does not decode ends the reading. -/
theorem read_of_spoilt {before after : List Hit} {hit : Hit} {error : Json.Error}
    (held : hits bytes = .ok (before ++ hit :: after)) (sound : AreSound before)
    (usable : hit.isUsable = true) (broken : decodeTags hit.tags = .error error) :
    read bytes =
      ⟨.featuresReturned (before ++ hit :: after).length :: warnings before,
        .error (.tags hit.id error)⟩ := by
  obtain ⟨position, placed⟩ := Hit.isUsable_iff_exists_position?.1 usable
  rw [read_of_hits held, place_append sound, place, placed]
  simp [broken]

/-- These are the records that the log holds. -/
theorem map_record_warnings (count : Nat) (met : List Hit) :
    (Notice.featuresReturned count :: warnings met).map Notice.record = logOf count met := by
  rw [List.map_cons, warnings, List.map_map]
  rfl

/-- A node needs no index, and it is no path. -/
theorem reduction_nodes (hits : List Hit) (index : PointIndex) :
    (Reduction.ofElements (nodes hits) index).droppedUnplaced = 0 ∧
      (Reduction.ofElements (nodes hits) index).pathsCentred = 0 := by
  have isPoint (element : Element) (member : element ∈ nodes hits) :
      ∃ position, element.geometry = .point position := by
    obtain ⟨hit, _, found⟩ := List.mem_filterMap.1 member
    obtain ⟨lon, lat, _, tags, _, _, rfl⟩ := Hit.gives_of_node? found
    exact ⟨⟨lon, lat⟩, rfl⟩
  rw [Reduction.droppedUnplaced_ofElements, Reduction.pathsCentred_ofElements, List.countP_eq_zero,
    List.countP_eq_zero]
  constructor
  · intro element member
    obtain ⟨position, geometry⟩ := isPoint element member
    simp [Element.isStranded, Element.place?, geometry, Geometry.place?]
  · intro element member
    obtain ⟨position, geometry⟩ := isPoint element member
    simp [Element.isCentred, geometry, Geometry.isPath]

end Readings

/--
The usable features of an answer become nodes in their order, the others are skipped with a warning
each, and the first usable feature whose tags do not decode is the fault. The tags of the others never
matter, and no node is dropped for want of a place.
-/
theorem read_exact {bytes : List UInt8} {found : List Hit} (held : hits bytes = .ok found) :
    (AreSound found →
      ∃ elements, (read bytes).result = .ok elements ∧
        List.Forall₂ Hit.Gives (found.filter Hit.isUsable) elements ∧
        (read bytes).notices.map Notice.record = logOf found.length found ∧
        ∀ index, (Reduction.ofElements elements index).droppedUnplaced = 0 ∧
          (Reduction.ofElements elements index).pathsCentred = 0) ∧
      (¬ AreSound found →
        ∃ before hit after error, found = before ++ hit :: after ∧ AreSound before ∧
          hit.isUsable = true ∧ decodeTags hit.tags = .error error ∧
          (read bytes).result = .error (.tags hit.id error) ∧
          (read bytes).notices.map Notice.record = logOf found.length before) ∧
      ∀ otherBytes others, hits otherBytes = .ok others →
        List.Forall₂ Hit.AgreesInUse found others → read otherBytes = read bytes := by
  refine ⟨?_, ?_, ?_⟩
  · intro sound
    have reading := read_of_areSound held sound
    refine ⟨nodes found, ?_, forall₂_nodes sound, ?_, reduction_nodes found⟩
    · rw [reading]
    · rw [reading]
      exact map_record_warnings found.length found
  · intro unsound
    rcases areSound_or_exists_spoilt found with
      sound | ⟨before, hit, after, error, rfl, sound, usable, broken⟩
    · exact (unsound sound).elim
    · have reading := read_of_spoilt held sound usable broken
      refine ⟨before, hit, after, error, rfl, sound, usable, broken, ?_, ?_⟩
      · rw [reading]
      · rw [reading]
        exact map_record_warnings _ before
  · intro otherBytes others otherHeld agree
    rw [read_of_hits otherHeld, read_of_hits held, place_congr agree, agree.length_eq]

/-- The first feature has no geometry and tags that are none, the second is a point. -/
def mixedAnswer : Json :=
  answerJson [featureJson 1 (.boolean true) .null, featureJson 2 .null (pointJson 1 2)]

/-- The first feature of this answer has no usable point, and the second one has. -/
theorem exists_hits_mixed :
    ∃ skipped usable, hits (Text.bytes mixedAnswer.compact) = .ok [skipped, usable] ∧
      skipped.isUsable = false ∧ usable.isUsable = true ∧ usable.Decodes := by
  obtain ⟨lon, lat, placed⟩ := exists_coordinatesIn?_plainPoint 1 2
  have first := prints_plainFeature 1 (Json.prints_boolean true) Json.prints_null
  have second := prints_plainFeature 2 Json.prints_null (prints_plainPoint 1 2)
  have writes := writesDocument_plainAnswer (.cons first (.cons second .nil))
  refine ⟨⟨1, some (.boolean true), []⟩, ⟨2, none, [lon, lat]⟩, ?_, rfl, rfl, ⟨.empty, rfl⟩⟩
  apply (hits_eq_ok_iff writes _).2
  rw [hits?_plainAnswer, List.mapM_cons, List.mapM_cons, hit?_plainFeature, hit?_plainFeature,
    placed]
  rfl

/-- Tags that are none do no harm where there is no point. -/
theorem read_exact_mixed :
    ∃ skipped usable elements, hits (Text.bytes mixedAnswer.compact) = .ok [skipped, usable] ∧
      (read (Text.bytes mixedAnswer.compact)).result = .ok elements ∧
      List.Forall₂ Hit.Gives [usable] elements ∧
      (read (Text.bytes mixedAnswer.compact)).notices.map Notice.record =
        logOf 2 [skipped, usable] := by
  obtain ⟨skipped, usable, held, unusable, isUsable, decodes⟩ := exists_hits_mixed
  have sound : AreSound [skipped, usable] := by
    intro hit member used
    rcases List.mem_cons.1 member with rfl | last
    · rw [unusable] at used
      cases used
    · rw [List.mem_singleton.1 last]
      exact decodes
  obtain ⟨whenSound, _, _⟩ := read_exact held
  obtain ⟨elements, result, gives, log, _⟩ := whenSound sound
  have used : [skipped, usable].filter Hit.isUsable = [usable] := by
    simp [unusable, isUsable]
  rw [used] at gives
  exact ⟨skipped, usable, elements, held, result, gives, log⟩

end LightList.Postpass
