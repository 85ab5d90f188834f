/-
This file holds the steps in which the text of a pattern is read.

Where blanks are ignored, comments are too: they start with a number sign and last up to the end of
the line.
-/

import LightList.Pattern.Fault
import LightList.Text.Blank

namespace LightList.Pattern

/-- This is what is left of a pattern and what has been learnt from what was read. -/
structure Scan where
  rest : List Char
  place : Place
  ignoresBlanks : Bool
  names : List (String × Extent)

abbrev Scanner (Value : Type) := StateT Scan (Except Fault) Value

namespace Scanner

def fail {Value : Type} (cause : Cause) (extent : Extent) : Scanner Value :=
  fun _ => .error ⟨cause, extent, none⟩

/-- What is at fault has an earlier occurrence. -/
def failAgain {Value : Type} (cause : Cause) (extent earlier : Extent) : Scanner Value :=
  fun _ => .error ⟨cause, extent, some earlier⟩

def here : Scanner Place := fun scan => .ok (scan.place, scan)

/-- This is the stretch from a place up to here. -/
def since (start : Place) : Scanner Extent := fun scan => .ok (⟨start, scan.place⟩, scan)

def next? : Scanner (Option Char) := fun scan => .ok (scan.rest.head?, scan)

/-- This is the character after the next one. -/
def second? : Scanner (Option Char) := fun scan => .ok (scan.rest.tail.head?, scan)

/-- This is the stretch of the next character. -/
def charExtent : Scanner Extent := fun scan =>
  match scan.rest with
  | [] => .ok (.point scan.place, scan)
  | character :: _ => .ok (⟨scan.place, scan.place.after character⟩, scan)

/-- This takes the next character, if there is one. -/
def skip : Scanner Unit := fun scan =>
  match scan.rest with
  | [] => .ok ((), scan)
  | character :: rest => .ok ((), { scan with rest, place := scan.place.after character })

/-- This takes the given characters if they come next. -/
def skipIf (expected : List Char) : Scanner Bool := fun scan =>
  if expected.isPrefixOf scan.rest then
    .ok (true, { scan with
      rest := scan.rest.drop expected.length, place := scan.place.afterAll expected })
  else .ok (false, scan)

/-- The flag says that a comment is open. -/
def afterBlanks : Bool → List Char → Place → List Char × Place
  | _, [], place => ([], place)
  | true, character :: rest, place => afterBlanks (character != '\n') rest (place.after character)
  | false, character :: rest, place =>
      if Text.isBlank character then afterBlanks false rest (place.after character)
      else if character = '#' then afterBlanks true rest (place.after character)
      else (character :: rest, place)

/-- This takes blanks and comments where they are ignored. -/
def skipBlanks : Scanner Unit := fun scan =>
  if scan.ignoresBlanks then
    let result := afterBlanks false scan.rest scan.place
    .ok ((), { scan with rest := result.1, place := result.2 })
  else .ok ((), scan)

/-- This takes the next character and the blanks after it, and says whether anything is left. -/
def advance : Scanner Bool := do
  skip
  skipBlanks
  return (← next?).isSome

/-- In this look past blanks a comment ends with its first character that is not blank. -/
def pastBlanks : Bool → List Char → List Char
  | _, [] => []
  | isOpen, character :: rest =>
      if Text.isBlank character then pastBlanks isOpen rest
      else if !isOpen && character = '#' then pastBlanks true rest
      else character :: rest

/-- This is the character after the next one, past blanks where they are ignored. -/
def secondPastBlanks? : Scanner (Option Char) := fun scan =>
  let rest := scan.rest.tail
  .ok ((if scan.ignoresBlanks then pastBlanks false rest else rest).head?, scan)

/-- This takes the characters of a kind, and the blanks after each of them. -/
def takeWithin (isWanted : Char → Bool) : List Char → List Char → Scanner (List Char)
  | [], taken => return taken.reverse
  | _ :: bound, taken => do
      match ← next? with
      | none => return taken.reverse
      | some character =>
          if isWanted character then
            let _ ← advance
            takeWithin isWanted bound (character :: taken)
          else return taken.reverse

def takeAll (isWanted : Char → Bool) : Scanner (List Char) :=
  fun scan => takeWithin isWanted scan.rest [] scan

end Scanner

end LightList.Pattern
