/-
This file reads a JSON value of any shape as a tree, and reads tags from a tree.

The members of an object are kept in ascending order of their keys, and of two members with the same
key the later one counts. The depth of brackets is limited.
-/

import LightList.Json.Typed

namespace LightList.Json.Reader

/-- The depth says how many brackets may still be opened. -/
def tree (depth : Nat) : Reader Json := do
  match ← peekToken with
  | none => fail .valueEnded .ahead
  | some byte =>
      if byte = openBracket then
        match depth with
        | 0 => fail .nestedTooDeep .ahead
        | inner + 1 =>
            skipByte
            enclosed (Json.array <$> items (tree inner)) closeList
      else if byte = openBrace then
        match depth with
        | 0 => fail .nestedTooDeep .ahead
        | inner + 1 =>
            skipByte
            enclosed ((fun members => Json.object (Keyed.ofList members)) <$> entries (tree inner))
              closeObject
      else if byte = quote then
        skipByte
        Json.string <$> text
      else if byte = minus ∨ isDigit byte then Json.number <$> number
      else if byte = letterN then
        skipByte
        restOfNull
        return .null
      else if byte = letterT then
        skipByte
        restOfTrue
        return .boolean true
      else if byte = letterF then
        skipByte
        restOfFalse
        return .boolean false
      else fail .expectedValue .ahead

/-- So many brackets may be open at once in a document. -/
def depthLimit : Nat := 127

end LightList.Json.Reader

namespace LightList.Json

def found : Json → Found
  | .null => .null
  | .boolean value => .boolean value
  | .number (.integer value) => .integer value
  | .number (.float value) => .float value
  | .string value => .text value
  | .array _ => .sequence
  | .object _ => .map

/-- This is the text of a string; a tree has no places, so neither has the fault. -/
def text? : Json → Except Error String
  | .string value => .ok value
  | other => .error ⟨.invalidType other.found "a string", none⟩

def textMembers : List (String × Json) → Except Error (List (String × String))
  | [] => .ok []
  | (key, value) :: rest =>
      match value.text? with
      | .error error => .error error
      | .ok text =>
          match textMembers rest with
          | .error error => .error error
          | .ok more => .ok ((key, text) :: more)

/-- Tags are an object whose values are all strings; the first member that is not decides. -/
def tags? : Json → Except Error Tags
  | .object members =>
      match textMembers members with
      | .ok pairs => .ok (.ofList pairs)
      | .error error => .error error
  | other => .error ⟨.invalidType other.found "a map", none⟩

end LightList.Json
