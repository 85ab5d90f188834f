/-
This file says what a tally holds after any sequence of values.

The list of the values seen is the exact count of each, in the order of first encounter, and the
index gives every value seen its own place in that list.
-/

import LightList.Proofs.TagLookup
import LightList.Tally
import Mathlib.Algebra.GroupWithZero.Nat

namespace LightList.Tally

/-- One more occurrence of a value is counted where the value stands, or at the end. -/
def tick (value : String) : List (String × Nat) → List (String × Nat)
  | [] => [(value, 1)]
  | entry :: rest =>
      if entry.1 = value then (entry.1, entry.2 + 1) :: rest else entry :: tick value rest

/-- Entries of other values are passed over. -/
theorem tick_append {value : String} {entries : List (String × Nat)}
    (absent : ∀ entry ∈ entries, entry.1 ≠ value) (more : List (String × Nat)) :
    tick value (entries ++ more) = entries ++ tick value more ∧
      (entries ++ more).lookup value = more.lookup value := by
  induction entries with
  | nil => exact ⟨rfl, rfl⟩
  | cons entry rest inductionHypothesis =>
      have different := absent entry List.mem_cons_self
      have later := inductionHypothesis fun other member =>
        absent other (List.mem_cons_of_mem entry member)
      rw [List.cons_append, tick, if_neg different, later.1, Keyed.lookup_cons_eq,
        if_neg (Ne.symm different)]
      exact ⟨rfl, later.2⟩

/-- At its first place a value has its count, and there it is counted. -/
theorem tick_of_first {value : String} {count slot : Nat} {entries : List (String × Nat)}
    (found : entries[slot]? = some (value, count))
    (first : ∀ place < slot, ∀ other, entries[place]? ≠ some (value, other)) :
    tick value entries = entries.modify slot (fun entry => (entry.1, entry.2 + 1)) ∧
      entries.lookup value = some count := by
  induction entries generalizing slot with
  | nil => cases found
  | cons entry rest inductionHypothesis =>
      cases slot with
      | zero =>
          cases found
          rw [tick, if_pos rfl, Keyed.lookup_cons_eq, if_pos rfl]
          exact ⟨rfl, rfl⟩
      | succ slot =>
          have different : entry.1 ≠ value := by
            intro same
            exact first 0 (Nat.succ_pos slot) entry.2 (by rw [← same]; rfl)
          have foundLater : rest[slot]? = some (value, count) := by simpa using found
          have later := inductionHypothesis foundLater
            fun place below other => by simpa using first (place + 1) (by omega) other
          rw [tick, if_neg different, later.1, Keyed.lookup_cons_eq, if_neg (Ne.symm different)]
          exact ⟨rfl, later.2⟩

/-- A tick raises one count by one. -/
theorem lookup_tick (value other : String) (entries : List (String × Nat)) :
    (tick value entries).lookup other =
      if other = value then some ((entries.lookup value).getD 0 + 1) else entries.lookup other := by
  induction entries with
  | nil =>
      rw [tick, Keyed.lookup_cons_eq]
      rfl
  | cons entry rest inductionHypothesis =>
      unfold tick
      split
      · next here =>
          simp only [Keyed.lookup_cons_eq, here]
          by_cases same : other = value
          · simp [same]
          · simp [same]
      · next elsewhere =>
          rw [Keyed.lookup_cons_eq, Keyed.lookup_cons_eq, Keyed.lookup_cons_eq,
            inductionHypothesis, if_neg (Ne.symm elsewhere)]
          by_cases same : other = value
          · simp [same, Ne.symm elsewhere]
          · simp [same]

/-- A tick raises the sum by one. -/
theorem sum_tick (value : String) (entries : List (String × Nat)) :
    ((tick value entries).map Prod.snd).sum = (entries.map Prod.snd).sum + 1 := by
  induction entries with
  | nil => rfl
  | cons entry rest inductionHypothesis =>
      unfold tick
      split
      · simp only [List.map_cons, List.sum_cons]
        omega
      · simp only [List.map_cons, List.sum_cons, inductionHypothesis]
        omega

/-- The index maps exactly the values seen, each to its own place. -/
def Indexed (tally : Tally) : Prop :=
  ∀ (value : String) (slot : Nat),
    tally.slots[value]? = some slot ↔ ∃ count, tally.seen[slot]? = some (value, count)

/-- Every value seen has its place in the index, lies outside the vocabulary and was counted. -/
structure Consistent (tally : Tally) : Prop where
  indexed : Indexed tally
  outside {value : String} {count : Nat} :
    (value, count) ∈ tally.seen → tally.vocabulary.contains value = false
  counted {value : String} {count : Nat} : (value, count) ∈ tally.seen → 0 < count

/-- A new tally has no slots and no values. -/
theorem consistent_new (vocabulary : Vocabulary) : Consistent (new vocabulary) where
  indexed value slot := by simp [new]
  outside member := by simp [new] at member
  counted member := by simp [new] at member

section Steps

variable {tally : Tally} {value : String}

/-- No value has two places. -/
theorem Indexed.slot_unique (indexed : Indexed tally) {first second firstCount secondCount : Nat}
    (atFirst : tally.seen[first]? = some (value, firstCount))
    (atSecond : tally.seen[second]? = some (value, secondCount)) : first = second := by
  have one := (indexed value first).2 ⟨firstCount, atFirst⟩
  have two := (indexed value second).2 ⟨secondCount, atSecond⟩
  rw [one] at two
  exact Option.some.inj two

/-- At its place a value has the count that looking it up gives. -/
theorem Indexed.lookup_eq (indexed : Indexed tally) {slot count : Nat}
    (found : tally.seen[slot]? = some (value, count)) :
    tick value tally.seen.toList =
        tally.seen.toList.modify slot (fun entry => (entry.1, entry.2 + 1)) ∧
      tally.seen.toList.lookup value = some count := by
  refine tick_of_first (by rw [Array.getElem?_toList, found]) ?_
  intro place below other earlier
  rw [Array.getElem?_toList] at earlier
  have same := indexed.slot_unique earlier found
  omega

/-- A value without a slot was not seen. -/
theorem Indexed.absent (indexed : Indexed tally) (unseen : tally.slots[value]? = none) :
    ∀ entry ∈ tally.seen.toList, entry.1 ≠ value := by
  rintro ⟨_, count⟩ member rfl
  obtain ⟨slot, within, found⟩ := List.mem_iff_getElem.1 member
  have placed := (indexed _ slot).2 ⟨count, by
    rw [← Array.getElem?_toList, List.getElem?_eq_getElem within, found]⟩
  rw [unseen] at placed
  cases placed

/-- Counting at the place of a value counts the value. -/
theorem seen_bump (indexed : Indexed tally) {slot : Nat} (placed : tally.slots[value]? = some slot) :
    (tally.bump slot).seen.toList = tick value tally.seen.toList ∧
      (tally.bump slot).countAt slot = (tally.seen.toList.lookup value).getD 0 + 1 := by
  obtain ⟨count, found⟩ := (indexed value slot).1 placed
  obtain ⟨ticked, looked⟩ := indexed.lookup_eq found
  constructor
  · rw [ticked]
    simp [bump]
  · have within : slot < tally.seen.size := by
      obtain ⟨inside, _⟩ := Array.getElem?_eq_some_iff.1 found
      exact inside
    rw [countAt_bump, if_pos ⟨rfl, within⟩, looked]
    simp [countAt, found]

theorem indexed_bump (indexed : Indexed tally) (slot : Nat) : Indexed (tally.bump slot) := by
  intro value place
  change tally.slots[value]? = some place ↔ _
  rw [indexed value place]
  simp only [bump, Array.getElem?_modify]
  split
  · constructor
    · rintro ⟨count, found⟩
      exact ⟨count + 1, by rw [found]; rfl⟩
    · rintro ⟨count, found⟩
      obtain ⟨⟨other, before⟩, there, same⟩ := Option.map_eq_some_iff.1 found
      cases same
      exact ⟨before, there⟩
  · exact Iff.rfl

/-- Entering a value gives it a place and changes no count. -/
theorem indexed_enter (indexed : Indexed tally) (value : String) :
    Indexed (tally.enter value).2 ∧
      (tally.enter value).2.slots[value]? = some (tally.enter value).1 ∧
      tick value (tally.enter value).2.seen.toList = tick value tally.seen.toList ∧
      ((tally.enter value).2.seen.toList.lookup value).getD 0 =
        (tally.seen.toList.lookup value).getD 0 := by
  have placed := slots_enter tally value value
  rw [if_pos rfl] at placed
  cases known : tally.slots[value]? with
  | some slot =>
      have same : tally.enter value = (slot, tally) := by simp [enter, known]
      rw [same] at placed ⊢
      exact ⟨indexed, placed, rfl, rfl⟩
  | none =>
      have absent := indexed.absent known
      have same : tally.enter value = (tally.seen.size, { tally with
          seen := tally.seen.push (value, 0)
          slots := tally.slots.insert value tally.seen.size }) := by simp [enter, known]
      rw [same] at placed ⊢
      refine ⟨?_, placed, ?_, ?_⟩
      · intro other place
        simp only [Std.HashMap.getElem?_insert, Array.getElem?_push, beq_iff_eq]
        by_cases here : value = other
        · rw [if_pos here]
          subst here
          by_cases last : place = tally.seen.size
          · simp [last]
          · rw [if_neg last]
            constructor
            · intro found
              exact (last (Option.some.inj found).symm).elim
            · intro found
              rw [(indexed value place).2 found] at known
              cases known
        · rw [if_neg here, indexed other place]
          by_cases last : place = tally.seen.size
          · simp [last, here]
          · rw [if_neg last]
      · have unseen := (tick_append absent []).1
        rw [List.append_nil] at unseen
        rw [Array.toList_push, (tick_append absent [(value, 0)]).1, unseen]
        simp [tick]
      · have unseen := (tick_append absent []).2
        rw [List.append_nil] at unseen
        rw [Array.toList_push, (tick_append absent [(value, 0)]).2, unseen]
        simp

/-- A value outside the vocabulary is counted once more, and the verdict holds its new count. -/
theorem classify_outside (indexed : Indexed tally)
    (unknown : tally.vocabulary.contains value = false) :
    Indexed (tally.classify value).2 ∧
      (tally.classify value).2.seen.toList = tick value tally.seen.toList ∧
      (tally.classify value).1 =
        .nonConforming ((tally.seen.toList.lookup value).getD 0 + 1) := by
  obtain ⟨entered, placed, ticked, looked⟩ := indexed_enter indexed value
  obtain ⟨counted, verdict⟩ := seen_bump entered placed
  have same : tally.classify value =
      (.nonConforming (((tally.enter value).2.bump (tally.enter value).1).countAt
        (tally.enter value).1), (tally.enter value).2.bump (tally.enter value).1) := by
    simp [classify, unknown]
  rw [same]
  exact ⟨indexed_bump entered _, counted.trans ticked, by rw [verdict, looked]⟩

/-- A tick adds a positive count for its value and touches no other. -/
theorem mem_tick {value other : String} {count : Nat} {entries : List (String × Nat)}
    (member : (other, count) ∈ tick value entries) :
    other = value ∧ 0 < count ∨ (other, count) ∈ entries := by
  induction entries with
  | nil =>
      cases List.mem_singleton.1 member
      exact .inl ⟨rfl, Nat.one_pos⟩
  | cons entry rest inductionHypothesis =>
      unfold tick at member
      split at member
      · next here =>
          rcases List.mem_cons.1 member with same | later
          · cases same
            exact .inl ⟨here, Nat.succ_pos _⟩
          · exact .inr (List.mem_cons_of_mem _ later)
      · rcases List.mem_cons.1 member with same | later
        · exact .inr (same ▸ List.mem_cons_self)
        · exact (inductionHypothesis later).imp id (List.mem_cons_of_mem _)

/-- Every call keeps the tally consistent. -/
theorem consistent_classify (consistent : Consistent tally) (value : String) :
    Consistent (tally.classify value).2 := by
  cases known : tally.vocabulary.contains value with
  | true =>
      rw [classify_conforming known]
      exact consistent
  | false =>
      obtain ⟨indexed, ticked, _⟩ := classify_outside consistent.indexed known
      have origin {other : String} {count : Nat} (member : (other, count) ∈ (tally.classify value).2.seen) :
          other = value ∧ 0 < count ∨ (other, count) ∈ tally.seen := by
        rw [← Array.mem_toList_iff, ticked] at member
        exact (mem_tick member).imp id Array.mem_toList_iff.1
      constructor
      · exact indexed
      · intro other count member
        rw [vocabulary_classify]
        rcases origin member with ⟨rfl, _⟩ | older
        · exact known
        · exact consistent.outside older
      · intro other count member
        rcases origin member with ⟨_, positive⟩ | older
        · exact positive
        · exact consistent.counted older

end Steps

/-- This is the tally after a sequence of calls. -/
def run (tally : Tally) (values : List String) : Tally :=
  values.foldl (fun tally value => (tally.classify value).2) tally

/-- This is how often a value was counted. -/
def countOf (tally : Tally) (value : String) : Nat := (tally.seen.toList.lookup value).getD 0

section Runs

variable {tally : Tally}

/-- Classifying never changes the vocabulary. -/
theorem vocabulary_run (tally : Tally) (values : List String) :
    (tally.run values).vocabulary = tally.vocabulary := by
  induction values generalizing tally with
  | nil => rfl
  | cons value rest inductionHypothesis =>
      exact (inductionHypothesis _).trans (vocabulary_classify tally value)

/-- Classifying keeps the slots in step with the values. -/
theorem consistent_run (consistent : Consistent tally) (values : List String) :
    Consistent (tally.run values) := by
  induction values generalizing tally with
  | nil => exact consistent
  | cons value rest inductionHypothesis =>
      exact inductionHypothesis (consistent_classify consistent value)

/-- The values outside the vocabulary are counted one by one, and the others not at all. -/
theorem seen_run (consistent : Consistent tally) (values : List String) :
    (tally.run values).seen.toList =
      (values.filter fun value => !tally.vocabulary.contains value).foldl
        (fun entries value => tick value entries) tally.seen.toList := by
  induction values generalizing tally with
  | nil => rfl
  | cons value rest inductionHypothesis =>
      have later := inductionHypothesis (consistent_classify consistent value)
      rw [vocabulary_classify] at later
      refine later.trans ?_
      cases known : tally.vocabulary.contains value with
      | true =>
          rw [classify_conforming known, List.filter_cons_of_neg (by simp [known])]
      | false =>
          rw [(classify_outside consistent.indexed known).2.1,
            List.filter_cons_of_pos (by simp [known])]
          rfl

/-- Many ticks raise each count by the number of its values. -/
theorem lookup_ticks (values : List String) (entries : List (String × Nat)) (value : String) :
    (((values.foldl (fun entries value => tick value entries) entries).lookup value).getD 0 : Nat) =
      (entries.lookup value).getD 0 + values.count value := by
  induction values generalizing entries with
  | nil => rfl
  | cons head rest inductionHypothesis =>
      rw [List.foldl_cons, inductionHypothesis, lookup_tick, List.count_cons]
      by_cases same : value = head
      · simp [same]
        omega
      · simp [same, Ne.symm same]

/-- Many ticks raise the sum by their number. -/
theorem sum_ticks (values : List String) (entries : List (String × Nat)) :
    ((values.foldl (fun entries value => tick value entries) entries).map Prod.snd).sum =
      (entries.map Prod.snd).sum + values.length := by
  induction values generalizing entries with
  | nil => rfl
  | cons head rest inductionHypothesis =>
      rw [List.foldl_cons, inductionHypothesis, sum_tick, List.length_cons]
      omega

/-- A run adds to the count of a value how often the value occurs, if it is outside. -/
theorem countOf_run (consistent : Consistent tally) (values : List String) (value : String) :
    (tally.run values).countOf value =
      tally.countOf value +
        (values.filter fun value => !tally.vocabulary.contains value).count value := by
  rw [countOf, seen_run consistent, lookup_ticks, countOf]

/-- The total is the sum of the counts. -/
theorem total_eq_sum (tally : Tally) : tally.total = (tally.seen.toList.map Prod.snd).sum := rfl

/-- The total grows by the number of strays. -/
theorem total_run (consistent : Consistent tally) (values : List String) :
    (tally.run values).total =
      tally.total + (values.filter fun value => !tally.vocabulary.contains value).length := by
  rw [total_eq_sum, seen_run consistent, sum_ticks, total_eq_sum]

/-- The report lists each value that was counted with its count, and nothing else. -/
theorem mem_report (consistent : Consistent tally) {value : String} {count : Nat} :
    (value, count) ∈ tally.report ↔ 0 < count ∧ tally.countOf value = count := by
  rw [report, List.mem_mergeSort, countOf]
  constructor
  · intro member
    obtain ⟨slot, within, found⟩ := List.mem_iff_getElem.1 member
    have placed : tally.seen[slot]? = some (value, count) := by
      rw [← Array.getElem?_toList, List.getElem?_eq_getElem within, found]
    rw [(consistent.indexed.lookup_eq placed).2]
    exact ⟨consistent.counted (Array.mem_toList_iff.1 member), rfl⟩
  · rintro ⟨positive, counted⟩
    cases looked : tally.seen.toList.lookup value with
    | none =>
        rw [looked] at counted
        exact (Nat.ne_of_lt positive counted).elim
    | some known =>
        rw [looked] at counted
        obtain ⟨before, after, split, _⟩ := List.lookup_eq_some_iff.1 looked
        rw [split, ← counted]
        simp

/-- No value has two entries. -/
theorem nodup_seen (consistent : Consistent tally) : (tally.seen.toList.map Prod.fst).Nodup := by
  rw [List.Nodup, List.pairwise_map, List.pairwise_iff_getElem]
  intro first second withinFirst withinSecond below same
  have placed (slot : Nat) (within : slot < tally.seen.toList.length) :
      tally.seen[slot]? = some (tally.seen.toList[slot].1, tally.seen.toList[slot].2) := by
    rw [← Array.getElem?_toList, List.getElem?_eq_getElem within]
  have atFirst := placed first withinFirst
  rw [same] at atFirst
  have places := consistent.indexed.slot_unique atFirst (placed second withinSecond)
  omega

/-- No value is listed twice. -/
theorem nodup_report (consistent : Consistent tally) : (tally.report.map Prod.fst).Nodup :=
  ((List.mergeSort_perm _ _).map Prod.fst).nodup_iff.2 (nodup_seen consistent)

end Runs

end LightList.Tally
