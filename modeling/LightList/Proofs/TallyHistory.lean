/-
This file says what a tally answers to any history of calls.

A call either classifies a value or asks what was counted, and the calls come in any order. The
answer to each of them depends only on the values that were classified before it.
-/

import LightList.Proofs.StableSort
import LightList.Proofs.TallyRun
import Mathlib.Data.List.Basic
import Mathlib.Data.List.Induction

namespace LightList

/-- The vocabulary knows exactly its codes. -/
theorem Vocabulary.contains_ofCodes (codes : List String) (value : String) :
    (ofCodes codes).contains value = decide (value ∈ codes) := by
  have started (vocabulary : Vocabulary) :
      (codes.foldl insert vocabulary).contains value = true ↔
        value ∈ codes ∨ vocabulary.contains value = true := by
    induction codes generalizing vocabulary with
    | nil => simp
    | cons code rest inductionHypothesis =>
        rw [List.foldl_cons, inductionHypothesis, contains_insert, List.mem_cons, or_left_comm,
          or_assoc]
  rw [Bool.eq_iff_iff, ofCodes, started, decide_eq_true_iff]
  simp [contains, empty]

namespace Tally

inductive Call where
  | classify (value : String)
  | report
  | total

inductive Answer where
  | verdict (verdict : Verdict)
  | report (lines : List (String × Nat))
  | total (count : Nat)

def answer (tally : Tally) : Call → Answer × Tally
  | .classify value => (.verdict (tally.classify value).1, (tally.classify value).2)
  | .report => (.report tally.report, tally)
  | .total => (.total tally.total, tally)

/-- These are the answers to calls that follow each other. -/
def answers (tally : Tally) : List Call → List Answer
  | [] => []
  | call :: rest => (tally.answer call).1 :: (tally.answer call).2.answers rest

/-- This is the tally that a history of calls leaves. -/
def after (tally : Tally) (history : List Call) : Tally :=
  history.foldl (fun tally call => (tally.answer call).2) tally

def Call.value? : Call → Option String
  | classify value => some value
  | _ => none

/-- These are the values that were classified. -/
def asked (history : List Call) : List String := history.filterMap Call.value?

/-- These are the values that were classified and are no codes. -/
def strays (codes : List String) (history : List Call) : List String :=
  (asked history).filter fun value => decide (value ∉ codes)

/-- Each value stands in one line with its count; the counts descend and ties keep their order. -/
structure Lists (lines : List (String × Nat)) (values : List String) : Prop where
  distinct : (lines.map Prod.fst).Nodup
  counts (value : String) (count : Nat) :
    (value, count) ∈ lines ↔ value ∈ values ∧ values.count value = count
  ordered : lines.Pairwise fun first second =>
    second.2 < first.2 ∨
      first.2 = second.2 ∧ values.idxOf first.1 < values.idxOf second.1

/-- This says which answer a call has after a history. -/
def IsAnswer (codes : List String) (history : List Call) : Call → Answer → Prop
  | .classify value, .verdict verdict =>
      verdict =
        if value ∈ codes then .conforming
        else .nonConforming ((asked (history ++ [.classify value])).count value)
  | .report, .report lines => Lists lines (strays codes history)
  | .total, .total count => count = (strays codes history).length
  | _, _ => False

/-- A new value comes last, and a known one stays at its place. -/
theorem map_fst_tick (value : String) (entries : List (String × Nat)) :
    (tick value entries).map Prod.fst =
      if value ∈ entries.map Prod.fst then entries.map Prod.fst
      else entries.map Prod.fst ++ [value] := by
  induction entries with
  | nil => rfl
  | cons entry rest inductionHypothesis =>
      unfold tick
      split
      · next here => simp [here]
      · next elsewhere =>
          rw [List.map_cons, inductionHypothesis, List.map_cons]
          by_cases known : value ∈ rest.map Prod.fst
          · rw [if_pos known, if_pos (List.mem_cons_of_mem _ known)]
          · have unknown : value ∉ entry.1 :: rest.map Prod.fst := by
              rw [List.mem_cons]
              exact not_or_intro (Ne.symm elsewhere) known
            rw [if_neg known, if_neg unknown, List.cons_append]

/-- The values counted stand in the order of their first occurrence. -/
theorem keys_ticks (values : List String) :
    let keys := (values.foldl (fun entries value => tick value entries) []).map Prod.fst
    (∀ value, value ∈ keys ↔ value ∈ values) ∧
      keys.Pairwise fun first second => values.idxOf first < values.idxOf second := by
  induction values using List.reverseRecOn with
  | nil => exact ⟨fun value => Iff.rfl, .nil⟩
  | append_singleton values value inductionHypothesis =>
      obtain ⟨same, ordered⟩ := inductionHypothesis
      have kept {first second : String} (firstMember : first ∈ values)
          (secondMember : second ∈ values) (below : values.idxOf first < values.idxOf second) :
          (values ++ [value]).idxOf first < (values ++ [value]).idxOf second := by
        rwa [List.idxOf_append_of_mem firstMember, List.idxOf_append_of_mem secondMember]
      have earlier := ordered.imp_of_mem fun firstMember secondMember below =>
        kept ((same _).1 firstMember) ((same _).1 secondMember) below
      simp only [List.foldl_append, List.foldl_cons, List.foldl_nil, map_fst_tick]
      split
      · next known =>
          refine ⟨?_, earlier⟩
          intro other
          rw [same, List.mem_append, List.mem_singleton]
          constructor
          · exact .inl
          · rintro (member | rfl)
            · exact member
            · exact (same _).1 known
      · next unknown =>
          constructor
          · intro other
            rw [List.mem_append, List.mem_append, same]
          · rw [List.pairwise_append]
            refine ⟨earlier, List.pairwise_singleton _ _, ?_⟩
            intro first member last isLast
            rw [List.mem_singleton.1 isLast, List.idxOf_append_of_mem ((same _).1 member),
              List.idxOf_append_of_notMem (mt (same _).2 unknown)]
            have within := List.idxOf_lt_length_iff.2 ((same _).1 member)
            omega

/-- Only the calls that classify change the tally. -/
theorem after_eq_run (tally : Tally) (history : List Call) :
    tally.after history = tally.run (asked history) := by
  induction history generalizing tally with
  | nil => rfl
  | cons call rest inductionHypothesis =>
      refine (inductionHypothesis (tally.answer call).2).trans ?_
      cases call with
      | classify value => rfl
      | report => rfl
      | total => rfl

theorem length_answers (tally : Tally) (calls : List Call) :
    (tally.answers calls).length = calls.length := by
  induction calls generalizing tally with
  | nil => rfl
  | cons call rest inductionHypothesis =>
      rw [answers, List.length_cons, List.length_cons, inductionHypothesis]

/-- The answer to a call is that of the tally which the calls before it leave. -/
theorem answers_at (tally : Tally) (earlier : List Call) (call : Call) (later : List Call) :
    (tally.answers (earlier ++ call :: later))[earlier.length]? =
      some ((tally.after earlier).answer call).1 := by
  induction earlier generalizing tally with
  | nil => rfl
  | cons first rest inductionHypothesis => exact inductionHypothesis (tally.answer first).2

section Histories

variable (codes : List String) (history : List Call)

/-- After any history the slots point to their values. -/
theorem consistent_after :
    Consistent ((new (.ofCodes codes)).after history) := by
  rw [after_eq_run]
  exact consistent_run (consistent_new _) _

theorem vocabulary_after :
    ((new (.ofCodes codes)).after history).vocabulary = .ofCodes codes := by
  rw [after_eq_run, vocabulary_run]
  rfl

/-- The strays of a history are the asked values outside the vocabulary. -/
theorem strays_eq :
    (asked history).filter (fun value => !(Vocabulary.ofCodes codes).contains value) =
      strays codes history := by
  unfold strays
  congr 1
  funext value
  rw [Vocabulary.contains_ofCodes, decide_not]

/-- The entries of a tally count the values outside the codes, from none. -/
theorem seen_after :
    ((new (.ofCodes codes)).after history).seen.toList =
      (strays codes history).foldl (fun entries value => tick value entries) [] := by
  rw [after_eq_run, seen_run (consistent_new _)]
  change ((asked history).filter fun value => !(Vocabulary.ofCodes codes).contains value).foldl _ _ = _
  rw [strays_eq]
  rfl

/-- The total counts all strays. -/
theorem total_after :
    ((new (.ofCodes codes)).after history).total = (strays codes history).length := by
  rw [total_eq_sum, seen_after, sum_ticks]
  exact Nat.zero_add _

/-- The count of a value is how often it was a stray. -/
theorem countOf_after (value : String) :
    ((new (.ofCodes codes)).after history).countOf value = (strays codes history).count value := by
  rw [countOf, seen_after, lookup_ticks]
  exact Nat.zero_add _

/-- More counts come first; of equal counts the earlier entry does. -/
theorem isOrder_byCount :
    StableSort.IsOrder fun first second : String × Nat => decide (second.2 ≤ first.2) where
  trans first second third low high := by
    simp only [decide_eq_true_eq] at low high ⊢
    omega
  total first second := by
    simp only [Bool.or_eq_true, decide_eq_true_eq]
    omega

/-- The report lists every stray with its count, the most frequent first. -/
theorem lists_report :
    Lists ((new (.ofCodes codes)).after history).report (strays codes history) := by
  have consistent := consistent_after codes history
  constructor
  · exact nodup_report consistent
  · intro value count
    rw [mem_report consistent, countOf_after, ← List.count_pos_iff]
    constructor
    · rintro ⟨positive, rfl⟩
      exact ⟨positive, rfl⟩
    · rintro ⟨positive, rfl⟩
      exact ⟨positive, rfl⟩
  · have firsts := (keys_ticks (strays codes history)).2
    rw [← seen_after, List.pairwise_map] at firsts
    rw [List.pairwise_iff_forall_sublist] at firsts ⊢
    intro first second inside
    have sorted := List.pairwise_iff_forall_sublist.1
      (List.pairwise_mergeSort isOrder_byCount.trans isOrder_byCount.total _) inside
    rw [decide_eq_true_eq] at sorted
    rcases Nat.lt_or_eq_of_le sorted with fewer | tied
    · exact .inl fewer
    · refine .inr ⟨tied.symm, firsts (StableSort.sublist_of_tied isOrder_byCount inside ?_)⟩
      exact decide_eq_true (Nat.le_of_eq tied.symm)

/-- A code leaves the tally as it is, and so does a question. -/
theorem after_append_of_untraced {call : Call}
    (untraced : ∀ value, call = .classify value → value ∈ codes) :
    (new (.ofCodes codes)).after (history ++ [call]) = (new (.ofCodes codes)).after history := by
  rw [after, List.foldl_append]
  change ((new (.ofCodes codes)).after history |>.answer call).2 = _
  cases call with
  | report => rfl
  | total => rfl
  | classify value =>
      have known : ((new (.ofCodes codes)).after history).vocabulary.contains value = true := by
        rw [vocabulary_after, Vocabulary.contains_ofCodes]
        exact decide_eq_true (untraced value rfl)
      rw [answer, classify_conforming known]

/-- Every call is answered from the history alone. -/
theorem isAnswer_answer (call : Call) :
    IsAnswer codes history call (((new (.ofCodes codes)).after history).answer call).1 := by
  cases call with
  | report => exact lists_report codes history
  | total => exact total_after codes history
  | classify value =>
      have contains := Vocabulary.contains_ofCodes codes value
      rw [← vocabulary_after codes history] at contains
      change (((new (.ofCodes codes)).after history).classify value).1 = _
      split
      · next isCode =>
          rw [classify_conforming (contains.trans (decide_eq_true isCode))]
      · next isStray =>
          have indexed := (consistent_after codes history).indexed
          rw [(classify_outside indexed (contains.trans (decide_eq_false isStray))).2.2]
          change Verdict.nonConforming (countOf _ value + 1) = _
          rw [countOf_after, strays, List.count_filter (by simpa using isStray), asked, asked,
            List.filterMap_append, List.count_append]
          simp [Call.value?]

end Histories

/--
A tally that starts with nothing counted answers every call of a history as the calls before it
demand, ends with exactly the counts of that history, and keeps its index in step with its list.
-/
theorem answers_exact (codes : List String) (calls : List Call) :
    let start := new (.ofCodes codes)
    let tally := start.after calls
    (start.answers calls).length = calls.length ∧
      (∀ earlier call later, calls = earlier ++ call :: later →
        (∃ answer, (start.answers calls)[earlier.length]? = some answer ∧
          IsAnswer codes earlier call answer) ∧
        ((∀ value, call = .classify value → value ∈ codes) →
          start.after (earlier ++ [call]) = start.after earlier)) ∧
      tally.total = (strays codes calls).length ∧
      Lists tally.report (strays codes calls) ∧
      (∀ (value : String) (slot : Nat), tally.slots[value]? = some slot ↔
        ∃ count, tally.seen[slot]? = some (value, count)) ∧
      (tally.seen.toList.map Prod.fst).Nodup ∧
      ∀ entry ∈ tally.seen, entry.1 ∉ codes ∧ 1 ≤ entry.2 := by
  intro start tally
  have consistent := consistent_after codes calls
  refine ⟨length_answers start calls, ?_, total_after codes calls, lists_report codes calls,
    consistent.indexed, nodup_seen consistent, ?_⟩
  · rintro earlier call later rfl
    refine ⟨⟨_, answers_at start earlier call later, isAnswer_answer codes earlier call⟩, ?_⟩
    exact after_append_of_untraced codes earlier
  · intro entry member
    refine ⟨?_, consistent.counted member⟩
    have outside := consistent.outside member
    rw [vocabulary_after, Vocabulary.contains_ofCodes] at outside
    exact of_decide_eq_false outside

end Tally

end LightList
