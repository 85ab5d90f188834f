/-
This file counts the values that fall outside a vocabulary.

The values seen stand in the order of their first encounter, and an index gives the slot of each.
-/

import LightList.Vocabulary
import Std.Data.HashMap

namespace LightList

inductive Verdict where
  | conforming
  | nonConforming (count : Nat)
deriving DecidableEq

structure Tally where
  vocabulary : Vocabulary
  seen : Array (String × Nat)
  slots : Std.HashMap String Nat

namespace Tally

def new (vocabulary : Vocabulary) : Tally := ⟨vocabulary, #[], ∅⟩

/-- A value gets its slot, with nothing counted yet, when it is first met. -/
def enter (tally : Tally) (value : String) : Nat × Tally :=
  match tally.slots[value]? with
  | some slot => (slot, tally)
  | none =>
      let slot := tally.seen.size
      (slot, { tally with
        seen := tally.seen.push (value, 0)
        slots := tally.slots.insert value slot })

def countAt (tally : Tally) (slot : Nat) : Nat :=
  match tally.seen[slot]? with
  | some entry => entry.2
  | none => 0

def bump (tally : Tally) (slot : Nat) : Tally :=
  { tally with seen := tally.seen.modify slot fun entry => (entry.1, entry.2 + 1) }

/-- The count in the verdict includes this occurrence. -/
def classify (tally : Tally) (value : String) : Verdict × Tally :=
  if tally.vocabulary.contains value then (.conforming, tally)
  else
    let entered := tally.enter value
    let counted := entered.2.bump entered.1
    (.nonConforming (counted.countAt entered.1), counted)

/-- Counts descend, and values with equal counts keep the order of their first encounter. -/
def report (tally : Tally) : List (String × Nat) :=
  tally.seen.toList.mergeSort fun first second => decide (second.2 ≤ first.2)

def total (tally : Tally) : Nat := (tally.seen.toList.map Prod.snd).foldr (· + ·) 0

/-- Only the count in this slot is raised. -/
theorem countAt_bump (tally : Tally) (slot other : Nat) :
    (tally.bump slot).countAt other =
      if slot = other ∧ other < tally.seen.size then tally.countAt other + 1
      else tally.countAt other := by
  unfold countAt bump
  rw [Array.getElem?_modify]
  by_cases same : slot = other
  · by_cases inside : other < tally.seen.size
    · simp [same, inside]
    · simp [same, inside]
  · simp [same]

/-- Only the new value gets a new slot. -/
theorem slots_enter (tally : Tally) (value other : String) :
    (tally.enter value).2.slots[other]? =
      if other = value then some (tally.enter value).1 else tally.slots[other]? := by
  unfold enter
  split
  · next known =>
      by_cases same : other = value
      · simp [same, known]
      · simp [same]
  · by_cases same : value = other
    · simp [same]
    · simp [same, Ne.symm same, Std.HashMap.getElem?_insert]

/-- A value of the vocabulary leaves the tally as it was. -/
theorem classify_conforming {tally : Tally} {value : String}
    (known : tally.vocabulary.contains value = true) :
    tally.classify value = (.conforming, tally) := by
  simp [classify, known]

theorem vocabulary_classify (tally : Tally) (value : String) :
    (tally.classify value).2.vocabulary = tally.vocabulary := by
  unfold classify
  split
  · rfl
  · unfold enter
    split <;> rfl

end Tally

end LightList
