/-
This file shows that elements which nothing refers to can be left out of an extract.

An element without kept tags matters only as a node that an element with kept tags is placed by. The
index of the smaller extract may differ elsewhere, but it is never asked there.
-/

import LightList.Pipeline
import LightList.Proofs.AuditOfReduction
import LightList.Proofs.SourceOrder

namespace LightList

/-- This relates a list to what remains of it when some of the values that pass the test are left out. -/
inductive Without {Value : Type} (test : Value → Prop) : List Value → List Value → Prop where
  | done : Without test [] []
  | keep (value : Value) {values others : List Value} :
      Without test values others → Without test (value :: values) (value :: others)
  | drop {value : Value} {values others : List Value} :
      test value → Without test values others → Without test (value :: values) others

namespace Without

variable {Value Result : Type} {test : Value → Prop} {values others : List Value}

theorem length_le (without : Without test values others) : others.length ≤ values.length := by
  induction without with
  | done => exact Nat.le_refl _
  | keep value _ inductionHypothesis => exact Nat.succ_le_succ inductionHypothesis
  | drop _ _ inductionHypothesis => exact Nat.le_succ_of_le inductionHypothesis

/-- All that pass the test can be left out at once. -/
theorem filter (test : Value → Prop) [DecidablePred test] (values : List Value) :
    Without test values (values.filter fun value => !decide (test value)) := by
  induction values with
  | nil => exact .done
  | cons value rest inductionHypothesis =>
      rw [List.filter_cons]
      by_cases passed : test value
      · simpa [passed] using Without.drop passed inductionHypothesis
      · simpa [passed] using Without.keep value inductionHypothesis

/-- What is left out gives no result. -/
theorem filterMap_eq (without : Without test values others) {change : Value → Option Result}
    (nothing : ∀ {value}, test value → change value = none) :
    values.filterMap change = others.filterMap change := by
  induction without with
  | done => rfl
  | keep value _ inductionHypothesis =>
      rw [List.filterMap_cons, List.filterMap_cons, inductionHypothesis]
  | drop dropped _ inductionHypothesis =>
      rw [List.filterMap_cons_none (nothing dropped), inductionHypothesis]

/-- What is left out was not chosen anyway. -/
theorem filter_eq (without : Without test values others) {chosen : Value → Bool}
    (never : ∀ {value}, test value → chosen value = false) :
    values.filter chosen = others.filter chosen := by
  induction without with
  | done => rfl
  | keep value _ inductionHypothesis =>
      rw [List.filter_cons, List.filter_cons, inductionHypothesis]
  | drop dropped _ inductionHypothesis =>
      rw [List.filter_cons_of_neg (by simp [never dropped]), inductionHypothesis]

/-- What is left out is counted. -/
theorem countP_eq (without : Without test values others) {counted : Value → Bool}
    (always : ∀ {value}, test value → counted value = true) :
    values.countP counted = others.countP counted + (values.length - others.length) := by
  induction without with
  | done => rfl
  | keep value _ inductionHypothesis =>
      rw [List.countP_cons, List.countP_cons, inductionHypothesis, List.length_cons,
        List.length_cons, Nat.add_sub_add_right, Nat.add_right_comm]
  | drop dropped without inductionHypothesis =>
      have shorter := without.length_le
      rw [List.countP_cons_of_pos (always dropped), inductionHypothesis, List.length_cons]
      omega

/-- What is left out changes no state. -/
theorem foldl_eq (without : Without test values others) {step : Result → Value → Result}
    (still : ∀ {value}, test value → ∀ state, step state value = state) (start : Result) :
    values.foldl step start = others.foldl step start := by
  induction without generalizing start with
  | done => rfl
  | keep value _ inductionHypothesis => exact inductionHypothesis _
  | drop dropped _ inductionHypothesis =>
      rw [List.foldl_cons, still dropped, inductionHypothesis]

end Without

/-- Only the entries of a key decide what is found under it. -/
theorem Keyed.lookup_filter_same {Key Value : Type} [BEq Key] [LawfulBEq Key] [DecidableEq Key]
    (entries : List (Key × Value)) (key : Key) :
    (entries.filter fun entry => entry.1 == key).lookup key = entries.lookup key := by
  induction entries with
  | nil => rfl
  | cons entry rest inductionHypothesis =>
      rw [List.filter_cons, lookup_cons_eq]
      by_cases same : key = entry.1
      · subst same
        rw [if_pos rfl, if_pos (beq_self_eq_true _), lookup_cons_eq, if_pos rfl]
      · rw [if_neg same, if_neg (by simpa using Ne.symm same), inductionHypothesis]

namespace Element

/-- Such an element has no kept tag, and no element with kept tags refers to it as an indexed node. -/
def IsIrrelevant (elements : List Element) (element : Element) : Prop :=
  element.isTagged = false ∧
    ¬ (element.kind = .node ∧ element.point?.isSome = true ∧
      ∃ user ∈ elements, user.isTagged = true ∧ element.id ∈ user.geometry.references)

instance (elements : List Element) : DecidablePred (IsIrrelevant elements) := fun element =>
  inferInstanceAs (Decidable (element.isTagged = false ∧
    ¬ (element.kind = .node ∧ element.point?.isSome = true ∧
      ∃ user ∈ elements, user.isTagged = true ∧ element.id ∈ user.geometry.references)))

/-- A character stands on a kept key. -/
theorem light?_of_untagged {element : Element} (untagged : element.isTagged = false)
    (property : String) : element.tags.light? property = none := by
  apply Tags.light?_of_kept?_none
  rw [kept?_eq, untagged]
  rfl

/-- An element without kept tags is dropped wherever it lies. -/
theorem fate_of_untagged {element : Element} (untagged : element.isTagged = false)
    (index : PointIndex) : element.fate index = .untagged := by
  rw [fate, kept?_eq, untagged]
  rfl

section Indexes

variable {elements others : List Element} (without : Without (IsIrrelevant elements) elements others)

include without

/-- Both indexes know the same of an identifier that an element with kept tags refers to. -/
theorem get?_of_without {id : ElementId} {user : Element} (member : user ∈ elements)
    (tagged : user.isTagged = true) (refers : id ∈ user.geometry.references) :
    (PointIndex.ofElements elements).get? id = (PointIndex.ofElements others).get? id := by
  have entries : (elements.filterMap fun element =>
      element.indexEntry?.filter fun entry => entry.1 == id) =
        others.filterMap fun element => element.indexEntry?.filter fun entry => entry.1 == id := by
    apply without.filterMap_eq
    intro element irrelevant
    unfold indexEntry?
    split
    · next isNode =>
        cases point : element.point? with
        | none => rfl
        | some position =>
            have other : element.id ≠ id := by
              rintro rfl
              exact irrelevant.2 ⟨isNode, by rw [point]; rfl, user, member, tagged, refers⟩
            rw [Option.map_some, Option.filter_some, if_neg (by simpa using other)]
    · rfl
  have found (list : List Element) : (PointIndex.ofElements list).get? id =
      (list.filterMap fun element =>
        element.indexEntry?.filter fun entry => entry.1 == id).reverse.lookup id := by
    rw [PointIndex.get?_ofElements, ← List.filter_filterMap, ← List.filter_reverse,
      Keyed.lookup_filter_same]
  rw [found, found, entries]

/-- So an element with kept tags has the same place. -/
theorem place?_of_without {element : Element} (member : element ∈ elements)
    (tagged : element.isTagged = true) :
    element.place? (.ofElements elements) = element.place? (.ofElements others) :=
  place?_congr fun _ refers => get?_of_without without member tagged refers

/-- What is left out does not change the fate of the others. -/
theorem fate_of_without {element : Element} (member : element ∈ elements) :
    element.fate (.ofElements elements) = element.fate (.ofElements others) := by
  cases tagged : element.isTagged with
  | true => rw [fate, fate, place?_of_without without member tagged]
  | false => rw [fate_of_untagged tagged, fate_of_untagged tagged]

/-- What is left out does not change how the others are audited. -/
theorem visit_of_without {element : Element} (member : element ∈ elements) (audit : Audit) :
    Audit.visit (.ofElements elements) audit element =
      Audit.visit (.ofElements others) audit element := by
  unfold Audit.visit
  cases tagged : element.isTagged with
  | true => rw [place?_of_without without member tagged]
  | false => rw [light?_of_untagged tagged]

end Indexes

end Element

/-- Where the index stays the same, elements without kept tags only count as read and as dropped. -/
theorem Reduction.ofElements_of_without {test : Element → Prop} {elements others : List Element}
    (without : Without test elements others)
    (untagged : ∀ {element}, test element → element.isTagged = false) (index : PointIndex) :
    let rest := ofElements others index
    let removed := elements.length - others.length
    ofElements elements index =
      { rest with
        sourceElements := rest.sourceElements + removed
        droppedUntagged := rest.droppedUntagged + removed } := by
  intro rest removed
  have fate {element : Element} (chosen : test element) : element.fate index = .untagged :=
    Element.fate_of_untagged (untagged chosen) index
  have records : (elements.map fun element => element.fate index).filterMap Fate.record? =
      (others.map fun element => element.fate index).filterMap Fate.record? := by
    rw [List.filterMap_map, List.filterMap_map]
    exact without.filterMap_eq fun chosen => congrArg Fate.record? (fate chosen)
  have notices : (elements.map fun element => element.fate index).filterMap Fate.notice? =
      (others.map fun element => element.fate index).filterMap Fate.notice? := by
    rw [List.filterMap_map, List.filterMap_map]
    exact without.filterMap_eq fun chosen => congrArg Fate.notice? (fate chosen)
  have uncounted {counted : Fate → Bool} (skipped : counted .untagged = false) :
      (elements.map fun element => element.fate index).countP counted =
        (others.map fun element => element.fate index).countP counted := by
    rw [List.countP_map, List.countP_map, List.countP_eq_length_filter,
      List.countP_eq_length_filter]
    exact congrArg List.length
      (without.filter_eq fun chosen => (congrArg counted (fate chosen)).trans skipped)
  have counted : (elements.map fun element => element.fate index).countP Fate.isUntagged =
      (others.map fun element => element.fate index).countP Fate.isUntagged + removed := by
    rw [List.countP_map, List.countP_map]
    exact without.countP_eq fun chosen => congrArg Fate.isUntagged (fate chosen)
  have source : elements.length = others.length + removed :=
    (Nat.add_sub_of_le without.length_le).symm
  have unplaced := @uncounted Fate.isUnplaced rfl
  have fromPath := @uncounted Fate.isFromPath rfl
  unfold rest ofElements
  simp only [records, notices, counted, unplaced, fromPath, source]

/--
An extract and what remains of it without some irrelevant elements give the same records, the same
notices and the same audit. Only the counters of elements read and of elements without kept tags fall,
by the number of elements left out.
-/
theorem Pipeline.stages_eq_of_without {elements others : List Element}
    (without : Without (Element.IsIrrelevant elements) elements others) :
    let index := PointIndex.ofElements elements
    let other := PointIndex.ofElements others
    let first := Reduction.ofElements elements index
    let second := Reduction.ofElements others other
    let removed := elements.length - others.length
    second.records = first.records ∧
      second.droppedUnplaced = first.droppedUnplaced ∧
      second.pathsCentred = first.pathsCentred ∧
      second.notices = first.notices ∧
      first.sourceElements = second.sourceElements + removed ∧
      first.droppedUntagged = second.droppedUntagged + removed ∧
      ∀ tally, Audit.ofElements others other tally = Audit.ofElements elements index tally := by
  intro index other first second removed
  have fates : elements.map (fun element => element.fate index) =
      elements.map fun element => element.fate other :=
    List.map_congr_left fun element member => Element.fate_of_without without member
  have reindexed : first = Reduction.ofElements elements other := by
    unfold first Reduction.ofElements
    rw [fates]
  have reduced := Reduction.ofElements_of_without without (fun irrelevant => irrelevant.1) other
  rw [reindexed, reduced]
  refine ⟨rfl, rfl, rfl, rfl, rfl, rfl, ?_⟩
  intro tally
  have visited : elements.foldl (Audit.visit index) (.start tally) =
      elements.foldl (Audit.visit other) (.start tally) :=
    List.foldl_ext _ _ _ fun audit element member => Element.visit_of_without without member audit
  rw [Audit.ofElements, Audit.ofElements, visited]
  refine (without.foldl_eq ?_ _).symm
  intro element irrelevant audit
  rw [Audit.visit, Element.light?_of_untagged irrelevant.1]

/-- A lit path over two nodes, a buoy, and nodes and ways that no lit path refers to. -/
def harbour : List Element :=
  [.node 1 ⟨7, 7⟩ .empty, .way 20 [1, 2] (.ofList [("seamark:light:character", "Fl")]),
    .node 1 ⟨0, 0⟩ .empty, .node 2 ⟨4, 0⟩ .empty, .node 3 ⟨5, 5⟩ .empty,
    .way 21 [1, 3] (.ofList [("highway", "path")]), .node 4 ⟨1, 1⟩ (.ofList [("name", "Buoy")])]

/-- A way without kept tags is left out, and so is the node that only it refers to. -/
theorem Pipeline.stages_eq_of_without_harbour :
    let rest := harbour.filter fun element => !decide (Element.IsIrrelevant harbour element)
    rest.map Element.id = [1, 20, 1, 2, 4] ∧
      (Reduction.ofElements rest (.ofElements rest)).records =
        (Reduction.ofElements harbour (.ofElements harbour)).records := by
  intro rest
  have same := stages_eq_of_without (Without.filter (Element.IsIrrelevant harbour) harbour)
  exact ⟨by decide +kernel, same.1⟩

end LightList
