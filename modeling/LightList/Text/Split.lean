/-
This file splits a text at every occurrence of a character.
-/

namespace LightList.Text

/-- There is always one part more than there are separators. -/
def split (separator : Char) : List Char → List (List Char)
  | [] => [[]]
  | character :: rest =>
      if character = separator then [] :: split separator rest
      else
        match split separator rest with
        | [] => [[character]]
        | first :: more => (character :: first) :: more

theorem split_ne_nil (separator : Char) (text : List Char) : split separator text ≠ [] := by
  cases text with
  | nil => simp [split]
  | cons character rest =>
      unfold split
      split
      · simp
      · split <;> simp

/-- There is one part more than there are separators. -/
theorem length_split (separator : Char) (text : List Char) :
    (split separator text).length = text.count separator + 1 := by
  induction text with
  | nil => rfl
  | cons character rest inductionHypothesis =>
      unfold split
      split
      · next same => simp [same, inductionHypothesis]
      · next different =>
          split
          · next none => exact absurd none (split_ne_nil separator rest)
          · next first more parts =>
              rw [parts] at inductionHypothesis
              simpa [List.count_cons, different] using inductionHypothesis

/-- A text without the separator is one part. -/
theorem split_of_not_mem {separator : Char} {text : List Char} (absent : separator ∉ text) :
    split separator text = [text] := by
  induction text with
  | nil => rfl
  | cons character rest inductionHypothesis =>
      have different : separator ≠ character := List.ne_of_not_mem_cons absent
      have others : separator ∉ rest := List.not_mem_of_not_mem_cons absent
      rw [split, if_neg different.symm, inductionHypothesis others]

/-- At each separator a text can be split into two that are split on their own. -/
theorem split_append (separator : Char) (front back : List Char) :
    split separator (front ++ separator :: back) = split separator front ++ split separator back := by
  induction front with
  | nil =>
      rw [List.nil_append, split, split, if_pos rfl]
      rfl
  | cons character rest inductionHypothesis =>
      rw [List.cons_append, split, split, inductionHypothesis]
      split
      · rfl
      · cases parts : split separator rest with
        | nil => exact absurd parts (split_ne_nil separator rest)
        | cons first more => rfl

/-- The first separator ends the first part. -/
theorem split_append_cons {separator : Char} {line : List Char} (absent : separator ∉ line)
    (rest : List Char) : split separator (line ++ separator :: rest) = line :: split separator rest := by
  rw [split_append, split_of_not_mem absent, List.singleton_append]

/-- No part holds the separator. -/
theorem not_mem_of_mem_split {separator : Char} {text part : List Char}
    (member : part ∈ split separator text) : separator ∉ part := by
  induction text generalizing part with
  | nil =>
      rw [split, List.mem_singleton] at member
      rw [member]
      exact List.not_mem_nil
  | cons character rest inductionHypothesis =>
      rw [split] at member
      split at member
      · rcases List.mem_cons.1 member with rfl | others
        · exact List.not_mem_nil
        · exact inductionHypothesis others
      · next different =>
          split at member
          · next none => exact absurd none (split_ne_nil separator rest)
          · next first more parts =>
              rcases List.mem_cons.1 member with rfl | others
              · have inFirst : separator ∉ first := inductionHypothesis (parts ▸ List.mem_cons_self)
                exact List.not_mem_cons_of_ne_of_not_mem (Ne.symm different) inFirst
              · exact inductionHypothesis (parts ▸ List.mem_cons_of_mem first others)

/-- The parts with separators between them are the text. -/
theorem eq_of_split_eq_cons {separator : Char} {text first : List Char} {more : List (List Char)}
    (parts : split separator text = first :: more) :
    text = first ++ more.flatMap fun part => separator :: part := by
  induction text generalizing first more with
  | nil =>
      cases parts
      rfl
  | cons character rest inductionHypothesis =>
      rw [split] at parts
      split at parts
      · next same =>
          cases further : split separator rest with
          | nil => exact absurd further (split_ne_nil separator rest)
          | cons next others =>
              rw [further] at parts
              cases parts
              rw [same, inductionHypothesis further]
              rfl
      · split at parts
        · next none => exact absurd none (split_ne_nil separator rest)
        · next next others further =>
            cases parts
            rw [inductionHypothesis further]
            rfl

def splitText (separator : Char) (text : String) : List String :=
  (split separator text.toList).map String.ofList

/-- A line feed ends a line, and a carriage return before it belongs to that end. -/
def lineOf (characters : List Char) : List Char :=
  if characters.getLast? = some '\r' then characters.dropLast else characters

/-- These are the lines of a text whose every line is ended. -/
def lines (text : String) : List String :=
  (split '\n' text.toList).dropLast.map fun characters => String.ofList (lineOf characters)

end LightList.Text
