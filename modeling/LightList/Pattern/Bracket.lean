/-
This file reads classes in brackets.

What stands in brackets is a row of characters, ranges and classes, and operators may stand between
such rows. The brackets still open stand on a stack, with an operator that waits for its right side.
-/

import LightList.Pattern.Escape

namespace LightList.Pattern

/-- This is the row that is being read, its latest part first. -/
structure Row where
  start : Place
  finish : Place
  parts : List Members

namespace Row

def empty (place : Place) : Row := ⟨place, place, []⟩

def add (row : Row) (part : Members) : Row :=
  { start := if row.parts.isEmpty then part.extent.start else row.start
    finish := part.extent.finish
    parts := part :: row.parts }

def members (row : Row) : Members := .ofParts row.parts.reverse ⟨row.start, row.finish⟩

end Row

/-- The extent of a bracket that is open ends where its row begins. -/
inductive Level where
  | bracket (outer : Row) (isNegated : Bool) (extent : Extent)
  | operator (operation : Operation) (left : Members)

namespace Level

/-- This gives a waiting operator its right side. -/
def combine (right : Members) : List Level → Members × List Level
  | operator operation left :: levels =>
      (.combined operation left right ⟨left.extent.start, right.extent.finish⟩, levels)
  | levels => (right, levels)

/-- The innermost bracket is the one that is told when it is not closed. -/
def innermost? : List Level → Option Extent
  | [] => none
  | bracket _ _ extent :: _ => some extent
  | operator _ _ :: levels => innermost? levels

end Level

namespace Scanner

def unclosed {Value : Type} (levels : List Level) : Scanner Value := do
  fail .classUnclosed ((Level.innermost? levels).getD (← charExtent))

/-- A character of a class stands for itself unless a backslash comes first. -/
def classItem : Scanner Tree := do
  match ← next? with
  | some '\\' => escape
  | some character =>
      let extent ← charExtent
      skip
      return .literal ⟨character, false, extent⟩
  | none => fail .classUnclosed (← charExtent)

/-- Not everything that can be escaped can stand in a class. -/
def asMembers (item : Tree) : Scanner Members :=
  match item with
  | .literal value => return .literal value
  | .named name extent => return .named name extent
  | other => fail .classEscape other.extent

def asBoundary (item : Tree) : Scanner Literal :=
  match item with
  | .literal value => return value
  | other => fail .classRangeLiteral other.extent

/-- A dash before a bracket or another dash is no range. -/
def rangeFollows : Scanner Bool := do
  if (← next?) = some '-' then
    let second ← secondPastBlanks?
    return second != some ']' && second != some '-'
  else return false

/-- This reads a character, a class or a range. -/
def rowPart (levels : List Level) : Scanner Members := do
  let first ← classItem
  skipBlanks
  if (← next?).isNone then unclosed levels
  else if ← rangeFollows then
    if ← advance then
      let last ← classItem
      let extent : Extent := ⟨first.extent.start, last.extent.finish⟩
      let low ← asBoundary first
      let high ← asBoundary last
      if low.character ≤ high.character then return .range low high extent
      else fail .classRange extent
    else unclosed levels
  else asMembers first

/-- Dashes at the beginning stand for themselves. -/
def leadingDashes (start : Place) : List Char → Row → Scanner Row
  | [], row => return row
  | _ :: bound, row => do
      if (← next?) = some '-' then
        let row := row.add (.literal ⟨'-', false, ← charExtent⟩)
        if ← advance then leadingDashes start bound row
        else fail .classUnclosed (.point start)
      else return row

/-- A closing bracket at the beginning stands for itself too. -/
def leadingBracket (start : Place) (row : Row) : Scanner Row := do
  if row.parts.isEmpty ∧ (← next?) = some ']' then
    let row := row.add (.literal ⟨']', false, ← charExtent⟩)
    if ← advance then return row else fail .classUnclosed (← since start)
  else return row

/-- A caret after the opening bracket negates the class. -/
def leadingCaret (start : Place) : Scanner Bool := do
  if (← next?) = some '^' then
    if ← advance then return true else fail .classUnclosed (← since start)
  else return false

/-- This reads an opening bracket and what has a meaning of its own behind it. -/
def openBracket (outer : Row) : Scanner (Level × Row) := do
  let start ← here
  if ← advance then
    let isNegated ← leadingCaret start
    let first := Row.empty (← here)
    let dashes ← fun scan => leadingDashes start scan.rest first scan
    let row ← leadingBracket start dashes
    return (.bracket outer isNegated (← since start), row)
  else fail .classUnclosed (← since start)

/-- This is the class between a bracket with a colon and a colon with a bracket, and its length. -/
def asciiClass? (characters : List Char) : Option (Ascii × Bool × Nat) :=
  match characters with
  | '[' :: ':' :: rest =>
      let isNegated := rest.head? = some '^'
      let name := (if isNegated then rest.tail else rest).takeWhile fun letter => letter != ':'
      let length := 2 + (if isNegated then 1 else 0) + name.length
      if [':', ']'].isPrefixOf (characters.drop length) then
        (Ascii.named.lookup (String.ofList name)).map fun kind => (kind, isNegated, length + 2)
      else none
  | _ => none

/-- Inside brackets another bracket may open a class that goes by its name. -/
def asciiClass (levels : List Level) : Scanner (Option Members) := fun scan =>
  match if levels.isEmpty then none else asciiClass? scan.rest with
  | none => .ok (none, scan)
  | some (kind, isNegated, length) =>
      let place := scan.place.afterAll (scan.rest.take length)
      .ok (some (.ascii kind isNegated ⟨scan.place, place⟩),
        { scan with rest := scan.rest.drop length, place })

/-- An operator is written as its sign twice. -/
def operators : List (Char × Operation) :=
  [('&', .intersection), ('-', .difference), ('~', .symmetricDifference)]

def operator? : Scanner (Option Operation) := do
  let first ← next?
  if first = (← second?) then return first.bind fun sign => operators.lookup sign
  else return none

/-- This reads a class from its opening bracket on. -/
def bracketWithin : List Char → List Level → Row → Scanner Tree
  | [], levels, _ => unclosed levels
  | _ :: bound, levels, row => do
      skipBlanks
      match ← next? with
      | none => unclosed levels
      | some '[' =>
          match ← asciiClass levels with
          | some part => bracketWithin bound levels (row.add part)
          | none =>
              let opened ← openBracket row
              bracketWithin bound (opened.1 :: levels) opened.2
      | some ']' =>
          match Level.combine row.members levels with
          | (members, .bracket outer isNegated extent :: rest) =>
              skip
              let extent ← since extent.start
              if rest.isEmpty then return .bracketed isNegated members extent
              else bracketWithin bound rest (outer.add (.bracketed isNegated members extent))
          | (_, rest) => unclosed rest
      | some _ =>
          match ← operator? with
          | some operation =>
              skip
              skip
              let combined := Level.combine row.members levels
              let row := Row.empty (← here)
              bracketWithin bound (.operator operation combined.1 :: combined.2) row
          | none => bracketWithin bound levels (row.add (← rowPart levels))

def bracket : Scanner Tree := fun scan =>
  bracketWithin scan.rest [] (.empty scan.place) scan

end Scanner

end LightList.Pattern
