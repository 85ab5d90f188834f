/-
This file shows that more codes in a vocabulary only take their own values out of an audit.

The entries of the other values move up in the tally, but they keep their counts and their order. So
the features and the report are those of the smaller vocabulary without the values of the new codes.
-/

import LightList.Proofs.AuditFeatures
import LightList.Proofs.TallyHistory

namespace LightList

namespace Vocabulary

/-- The codes ascend, so a vocabulary is determined by what it contains. -/
theorem ext_contains {first second : Vocabulary}
    (same : ∀ value, first.contains value = second.contains value) : first = second := by
  have distinct (vocabulary : Vocabulary) : vocabulary.codes.Nodup :=
    vocabulary.ascending.imp fun below => String.ne_of_lt below
  have members (value : String) : value ∈ first.codes ↔ value ∈ second.codes := by
    have found := same value
    rw [contains, contains, Bool.eq_iff_iff, List.contains_iff_mem, List.contains_iff_mem] at found
    exact found
  have perm : first.codes.Perm second.codes :=
    (List.perm_ext_iff_of_nodup (distinct first) (distinct second)).2 members
  have codes : first.codes = second.codes := by
    apply List.Perm.eq_of_pairwise _ first.ascending second.ascending perm
    intro one other _ _ low high
    exact (String.lt_asymm low high).elim
  cases first
  cases second
  cases codes
  rfl

/-- Order and repetition of codes do not matter. -/
theorem ofCodes_eq_iff {first second : List String} :
    ofCodes first = ofCodes second ↔ ∀ code, code ∈ first ↔ code ∈ second := by
  constructor
  · intro same code
    have contained := congrArg (fun vocabulary => vocabulary.contains code) same
    simpa only [contains_ofCodes, decide_eq_decide] using contained
  · intro same
    apply ext_contains
    intro value
    rw [contains_ofCodes, contains_ofCodes, decide_eq_decide]
    exact same value

/-- A longer vocabulary knows the further codes too. -/
theorem contains_ofCodes_append (codes extra : List String) (value : String) :
    (ofCodes (codes ++ extra)).contains value =
      ((ofCodes codes).contains value || decide (value ∈ extra)) := by
  rw [contains_ofCodes, contains_ofCodes, ← Bool.decide_or, decide_eq_decide, List.mem_append]

end Vocabulary

namespace Tally

/-- Counting a value that is left out leaves the other entries as they are. -/
theorem filter_tick (test : String → Bool) (value : String) (entries : List (String × Nat)) :
    (tick value entries).filter (fun entry => test entry.1) =
      if test value then tick value (entries.filter fun entry => test entry.1)
      else entries.filter fun entry => test entry.1 := by
  induction entries with
  | nil =>
      rw [tick, List.filter_cons, List.filter_nil]
      rfl
  | cons entry rest inductionHypothesis =>
      by_cases here : entry.1 = value
      · subst here
        rw [tick, if_pos rfl]
        cases accepted : test entry.1 with
        | true => simp [tick, accepted]
        | false => simp [accepted]
      · rw [tick, if_neg here, List.filter_cons, List.filter_cons, inductionHypothesis]
        cases test entry.1 with
        | false => rfl
        | true =>
            cases test value with
            | false => rfl
            | true => simp [tick, here]

/-- Counting some of the values gives the entries of these values. -/
theorem filter_ticks (test : String → Bool) (values : List String)
    (entries : List (String × Nat)) :
    (values.foldl (fun entries value => tick value entries) entries).filter
        (fun entry => test entry.1) =
      (values.filter test).foldl (fun entries value => tick value entries)
        (entries.filter fun entry => test entry.1) := by
  induction values generalizing entries with
  | nil => rfl
  | cons value rest inductionHypothesis =>
      rw [List.foldl_cons, inductionHypothesis, filter_tick, List.filter_cons]
      cases test value with
      | true => rfl
      | false => rfl

section Extension

variable (codes extra values : List String)

/-- The larger vocabulary counts what the smaller one counts, without the values of its new codes. -/
theorem seen_run_extended :
    ((new (.ofCodes (codes ++ extra))).run values).seen.toList =
      ((new (.ofCodes codes)).run values).seen.toList.filter fun entry =>
        decide (entry.1 ∉ extra) := by
  have passed (value : String) : (!(Vocabulary.ofCodes (codes ++ extra)).contains value) =
      (decide (value ∉ extra) && !(Vocabulary.ofCodes codes).contains value) := by
    rw [Vocabulary.contains_ofCodes_append, Bool.not_or, Bool.and_comm, decide_not]
  rw [seen_run (consistent_new _), seen_run (consistent_new _),
    filter_ticks fun value => decide (value ∉ extra), List.filter_filter]
  change (values.filter fun value => !(Vocabulary.ofCodes (codes ++ extra)).contains value).foldl
    _ [] = _
  simp only [passed]
  rfl

/-- A longer vocabulary takes its codes off the report and leaves the other lines. -/
theorem report_run_extended :
    ((new (.ofCodes (codes ++ extra))).run values).report =
      ((new (.ofCodes codes)).run values).report.filter fun line => decide (line.1 ∉ extra) := by
  rw [report, seen_run_extended, report, StableSort.filter_mergeSort isOrder_byCount]

/-- What the total loses are the counts of the lines that are left out. -/
theorem total_run_extended :
    ((new (.ofCodes codes)).run values).total =
      ((new (.ofCodes (codes ++ extra))).run values).total +
        ((((new (.ofCodes codes)).run values).report.filter fun line =>
          decide (line.1 ∈ extra)).map Prod.snd).sum := by
  generalize isNarrow : (new (.ofCodes codes)).run values = narrow
  have listed : narrow.report.Perm narrow.seen.toList := List.mergeSort_perm _ _
  have parted := List.filter_append_perm (fun line => decide (line.1 ∈ extra)) narrow.seen.toList
  rw [total_eq_sum, total_eq_sum, seen_run_extended, isNarrow,
    ((listed.filter _).map Prod.snd).sum_nat, ← (parted.map Prod.snd).sum_nat, List.map_append,
    List.sum_append_nat, Nat.add_comm]
  simp only [decide_not]

end Extension

end Tally

/-- A feature is lost exactly when its character is one of the new codes. -/
theorem Element.feature?_extended (element : Element) (index : PointIndex)
    (codes extra : List String) :
    element.feature? (.ofCodes (codes ++ extra)) index =
      (element.feature? (.ofCodes codes) index).filter fun feature =>
        decide (feature.character ∉ extra) := by
  unfold feature?
  cases element.tags.light? "character" with
  | none => rfl
  | some character =>
      dsimp only
      rw [Vocabulary.contains_ofCodes_append]
      cases (Vocabulary.ofCodes codes).contains character with
      | true => rfl
      | false =>
          cases element.place? index with
          | none => simp
          | some position =>
              rw [Option.map_some, if_neg Bool.false_ne_true, Option.filter_some]
              by_cases added : character ∈ extra
              · simp [added, feature]
              · simp [added, feature]

namespace Audit

/--
An audit under more codes gives the features, the report and the total of the audit under fewer,
without those of the new codes; what a list of codes stands for depends on its members alone.
-/
theorem ofElements_extended (elements : List Element) (index : PointIndex)
    (codes extra : List String) :
    let narrow := ofElements elements index (.new (.ofCodes codes))
    let wide := ofElements elements index (.new (.ofCodes (codes ++ extra)))
    wide.features.toList =
        narrow.features.toList.filter (fun feature => decide (feature.character ∉ extra)) ∧
      wide.tally.report = narrow.tally.report.filter (fun line => decide (line.1 ∉ extra)) ∧
      narrow.tally.total = wide.tally.total +
        ((narrow.tally.report.filter fun line => decide (line.1 ∈ extra)).map Prod.snd).sum ∧
      ∀ first second : List String, Vocabulary.ofCodes first = Vocabulary.ofCodes second ↔
        ∀ code, code ∈ first ↔ code ∈ second := by
  intro narrow wide
  have tallied (vocabulary : Vocabulary) := tally_ofElements elements index (.new vocabulary)
  have shown (vocabulary : Vocabulary) := features_ofElements elements index (.new vocabulary)
  refine ⟨?_, ?_, ?_, fun _ _ => Vocabulary.ofCodes_eq_iff⟩
  · rw [shown, shown, List.filter_filterMap]
    exact List.filterMap_congr fun element _ => element.feature?_extended index codes extra
  · rw [tallied, tallied]
    exact Tally.report_run_extended codes extra _
  · rw [tallied, tallied]
    exact Tally.total_run_extended codes extra _

end Audit

end LightList
