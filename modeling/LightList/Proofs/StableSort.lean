/-
This file shows that dropping and rewriting entries commutes with a stable sort.
-/

import LightList.Element
import Mathlib.Data.List.Forall2

namespace LightList.StableSort

/-- A comparison that can be sorted by: it is transitive, and of two values one comes first. -/
structure IsOrder {Value : Type} (le : Value → Value → Bool) : Prop where
  trans : ∀ first second third, le first second = true → le second third = true →
    le first third = true
  total : ∀ first second, (le first second || le second first) = true

/-- Comparing by identifier is such an order. -/
theorem isOrder_byId {Value : Type} (id : Value → ElementId) :
    IsOrder fun first second => decide (id first ≤ id second) where
  trans first second third low high := by
    simp only [decide_eq_true_eq, Int64.le_iff_toInt_le] at low high ⊢
    omega
  total first second := by
    simp only [Bool.or_eq_true, decide_eq_true_eq, Int64.le_iff_toInt_le]
    omega

/-- A test that holds in front and fails behind tells the two parts of a list. -/
theorem filter_split {Value : Type} (test : Value → Bool) {below above : List Value}
    (belowAll : ∀ value ∈ below, test value = true)
    (aboveAll : ∀ value ∈ above, test value = false) :
    (below ++ above).filter test = below ∧
      (below ++ above).filter (fun value => !test value) = above := by
  constructor
  · rw [List.filter_append, List.filter_eq_self.2 belowAll,
      List.filter_eq_nil_iff.2 fun value member => by simp [aboveAll value member], List.append_nil]
  · rw [List.filter_append, List.filter_eq_nil_iff.2 fun value member => by simp [belowAll value member],
      List.filter_eq_self.2 fun value member => by simp [aboveAll value member], List.nil_append]

/-- Two splits of a list at the same test are the same split. -/
theorem split_unique {Value : Type} (test : Value → Bool)
    {before after first second : List Value} (same : before ++ after = first ++ second)
    (beforeBelow : ∀ value ∈ before, test value = true)
    (afterAbove : ∀ value ∈ after, test value = false)
    (firstBelow : ∀ value ∈ first, test value = true)
    (secondAbove : ∀ value ∈ second, test value = false) : before = first ∧ after = second := by
  have split := filter_split test beforeBelow afterAbove
  rw [same] at split
  have other := filter_split test firstBelow secondAbove
  exact ⟨split.1.symm.trans other.1, split.2.symm.trans other.2⟩

/-- The sort puts a value behind all that must precede it and ahead of everything else. -/
theorem mergeSort_cons_split {Value : Type} {le : Value → Value → Bool} (order : IsOrder le)
    (head : Value) (rest : List Value) :
    ∃ before after, (head :: rest).mergeSort le = before ++ head :: after ∧
      rest.mergeSort le = before ++ after ∧ (∀ value ∈ before, le head value = false) ∧
      ∀ value ∈ after, le head value = true := by
  obtain ⟨before, after, placed, without, below⟩ :=
    List.mergeSort_cons order.trans order.total head rest
  have sorted := List.pairwise_mergeSort order.trans order.total (head :: rest)
  rw [placed, List.pairwise_append, List.pairwise_cons] at sorted
  refine ⟨before, after, placed, without, ?_, sorted.2.1.1⟩
  intro value member
  simpa using below value member

/--
Values whose order the change keeps may be changed or dropped before or after the sort. The
induction puts the head back where the sorted tail leaves room for it.
-/
theorem filterMap_mergeSort {Value Result : Type} {le : Value → Value → Bool}
    {resultLe : Result → Result → Bool} (order : IsOrder le) (resultOrder : IsOrder resultLe)
    {change : Value → Option Result}
    (keeps : ∀ {first second firstResult secondResult}, change first = some firstResult →
      change second = some secondResult → resultLe firstResult secondResult = le first second)
    (values : List Value) :
    (values.mergeSort le).filterMap change = (values.filterMap change).mergeSort resultLe := by
  induction values with
  | nil => simp
  | cons head rest inductionHypothesis =>
      obtain ⟨before, after, placed, without, below, above⟩ := mergeSort_cons_split order head rest
      rw [placed, List.filterMap_append]
      rw [without, List.filterMap_append] at inductionHypothesis
      cases changed : change head with
      | none =>
          rw [List.filterMap_cons_none changed, List.filterMap_cons_none changed,
            inductionHypothesis]
      | some result =>
          rw [List.filterMap_cons_some changed, List.filterMap_cons_some changed]
          obtain ⟨low, high, resultPlaced, resultWithout, resultBelow, resultAbove⟩ :=
            mergeSort_cons_split resultOrder result (rest.filterMap change)
          have side {values : List Value} {flag : Bool}
              (all : ∀ value ∈ values, le head value = flag) :
              ∀ other ∈ values.filterMap change, resultLe result other = flag := by
            intro other member
            obtain ⟨value, inside, rewritten⟩ := List.mem_filterMap.1 member
            rw [keeps changed rewritten]
            exact all value inside
          obtain ⟨rfl, rfl⟩ := split_unique (fun other => !resultLe result other)
            (inductionHypothesis.trans resultWithout)
            (fun other member => by simp [side below other member])
            (fun other member => by simp [side above other member])
            (fun other member => by simp [resultBelow other member])
            (fun other member => by simp [resultAbove other member])
          rw [resultPlaced]

/-- Sorting keeps the order of what is left, so a filter may come first. -/
theorem filter_mergeSort {Value : Type} {le : Value → Value → Bool} (order : IsOrder le)
    (test : Value → Bool) (values : List Value) :
    (values.mergeSort le).filter test = (values.filter test).mergeSort le := by
  have keeps {first second firstKept secondKept : Value}
      (firstFound : Option.guard test first = some firstKept)
      (secondFound : Option.guard test second = some secondKept) :
      le firstKept secondKept = le first second := by
    rw [(Option.guard_eq_some_iff.1 firstFound).1, (Option.guard_eq_some_iff.1 secondFound).1]
  rw [← List.filterMap_eq_filter, filterMap_mergeSort order order keeps, List.filterMap_eq_filter]

/-- Values that are tied with each other keep their order. -/
theorem filter_mergeSort_of_tied {Value : Type} {le : Value → Value → Bool} (order : IsOrder le)
    {test : Value → Bool}
    (tied : ∀ {first second}, test first = true → test second = true → le first second = true)
    (values : List Value) : (values.mergeSort le).filter test = values.filter test := by
  rw [filter_mergeSort order]
  apply List.mergeSort_of_pairwise
  rw [List.pairwise_iff_forall_sublist]
  intro first second inside
  have chosen {value : Value} (member : value ∈ [first, second]) : test value = true :=
    (List.mem_filter.1 (inside.subset member)).2
  exact tied (chosen List.mem_cons_self) (chosen (List.mem_cons_of_mem _ List.mem_cons_self))

/-- In sorted values a later one that is tied with an earlier one came after it before. -/
theorem sublist_of_tied {Value : Type} {le : Value → Value → Bool} (order : IsOrder le)
    {values : List Value} {first second : Value}
    (inside : [first, second].Sublist (values.mergeSort le)) (tied : le second first = true) :
    [first, second].Sublist values := by
  have sorted := List.pairwise_mergeSort order.trans order.total values
  have ordered : le first second = true := List.pairwise_iff_forall_sublist.1 sorted inside
  let test (value : Value) : Bool := le first value && le value first
  have reflexive : le first first = true := by simpa using order.total first first
  have kept : ([first, second].filter test).Sublist ((values.mergeSort le).filter test) :=
    inside.filter test
  rw [filter_mergeSort_of_tied order] at kept
  · have both : [first, second].filter test = [first, second] := by
      simp [test, reflexive, ordered, tied]
    rw [both] at kept
    exact kept.trans List.filter_sublist
  · intro one other isOne isOther
    simp only [test, Bool.and_eq_true] at isOne isOther
    exact order.trans _ _ _ isOne.2 isOther.1

/-- What is left out before the sort is missing after it, and nothing else changes. -/
theorem sublist_mergeSort {Value : Type} {le : Value → Value → Bool} (order : IsOrder le)
    {values more : List Value} (inside : values.Sublist more) :
    (values.mergeSort le).Sublist (more.mergeSort le) := by
  induction inside with
  | slnil => exact .refl _
  | @cons values more head _ inductionHypothesis =>
      obtain ⟨before, after, placed, without, _⟩ := mergeSort_cons_split order head more
      rw [without] at inductionHypothesis
      rw [placed]
      exact inductionHypothesis.trans ((List.sublist_cons_self head after).append_left before)
  | @cons_cons values more head _ inductionHypothesis =>
      obtain ⟨before, after, placed, without, below, above⟩ :=
        mergeSort_cons_split order head values
      obtain ⟨low, high, morePlaced, moreWithout, moreBelow, moreAbove⟩ :=
        mergeSort_cons_split order head more
      -- The head splits both sorted tails at the same test.
      let test (value : Value) : Bool := !le head value
      have parts : (before ++ after).filter test = before ∧
          (before ++ after).filter (fun value => !test value) = after :=
        filter_split test (fun value member => by simp [test, below value member])
          (fun value member => by simp [test, above value member])
      have moreParts : (low ++ high).filter test = low ∧
          (low ++ high).filter (fun value => !test value) = high :=
        filter_split test (fun value member => by simp [test, moreBelow value member])
          (fun value member => by simp [test, moreAbove value member])
      rw [without, moreWithout] at inductionHypothesis
      have fronts := inductionHypothesis.filter test
      have backs := inductionHypothesis.filter fun value => !test value
      rw [parts.1, moreParts.1] at fronts
      rw [parts.2, moreParts.2] at backs
      rw [placed, morePlaced]
      exact fronts.append (backs.cons_cons head)

section Relations

variable {Value Other : Type} {le : Value → Value → Bool} {otherLe : Other → Other → Bool}
  {relates : Value → Other → Prop} {values : List Value} {others : List Other}
  (keeps : ∀ first second firstOther secondOther, relates first firstOther →
    relates second secondOther → le first second = otherLe firstOther secondOther)

include keeps

/-- Lists whose values are related one by one are sorted alike if the relation keeps the order. -/
theorem forall₂_mergeSort (related : List.Forall₂ relates values others) :
    List.Forall₂ relates (values.mergeSort le) (others.mergeSort otherLe) := by
  obtain ⟨sameLength, each⟩ := List.forall₂_iff_zip.1 related
  let pairLe (first second : Value × Other) : Bool := le first.1 second.1
  let pairs := (values.zip others).mergeSort pairLe
  have firsts : pairs.map Prod.fst = values.mergeSort le := by
    rw [List.map_mergeSort (s := le) (fun _ _ _ _ => rfl), List.map_fst_zip (by omega)]
  have seconds : pairs.map Prod.snd = others.mergeSort otherLe := by
    rw [List.map_mergeSort fun first isFirst second isSecond =>
      keeps _ _ _ _ (each isFirst) (each isSecond), List.map_snd_zip (by omega)]
  rw [← firsts, ← seconds, List.forall₂_map_left_iff, List.forall₂_map_right_iff,
    List.forall₂_same]
  intro pair member
  exact each (List.mem_mergeSort.1 member)

/-- Both may happen at once: values are left out, and the others are related one by one. -/
theorem sublistForall₂_mergeSort (order : IsOrder otherLe)
    (related : List.SublistForall₂ relates values others) :
    List.SublistForall₂ relates (values.mergeSort le) (others.mergeSort otherLe) := by
  obtain ⟨kept, pairs, inside⟩ := List.sublistForall₂_iff.1 related
  exact List.sublistForall₂_iff.2
    ⟨kept.mergeSort otherLe, forall₂_mergeSort keeps pairs, sublist_mergeSort order inside⟩

end Relations

end LightList.StableSort
