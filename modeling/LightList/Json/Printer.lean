/-
This file writes a JSON tree as text, either compactly or indented by two spaces a level.

A float that has no decimal text is written as null.
-/

import LightList.Decimal.FloatText
import LightList.Json.Tree

namespace LightList.Json

def hexDigit (value : Nat) : Char := Nat.digitChar (value % 16)

/-- Quotes, backslashes and control characters are escaped, and nothing else. -/
def escapedChar (character : Char) : String :=
  if character = '"' then "\\\""
  else if character = '\\' then "\\\\"
  else if character = '\x08' then "\\b"
  else if character = '\x0c' then "\\f"
  else if character = '\n' then "\\n"
  else if character = '\r' then "\\r"
  else if character = '\t' then "\\t"
  else if character.toNat < 32 then
    "\\u00" ++ String.ofList [hexDigit (character.toNat / 16), hexDigit character.toNat]
  else character.toString

def quoted (text : String) : String :=
  "\"" ++ String.join (text.toList.map escapedChar) ++ "\""

def Number.text : Number → String
  | .integer value => value.repr
  | .float value => (Decimal.floatText? value).getD "null"

def indentation (depth : Nat) : String := String.ofList (List.replicate (2 * depth) ' ')

mutual

def compact : Json → String
  | .null => "null"
  | .boolean value => if value then "true" else "false"
  | .number value => value.text
  | .string value => quoted value
  | .array [] => "[]"
  | .array (item :: rest) => "[" ++ compact item ++ compactItems rest ++ "]"
  | .object [] => "\x7b\x7d"
  | .object ((key, value) :: rest) =>
      "\x7b" ++ quoted key ++ ":" ++ compact value ++ compactMembers rest ++ "\x7d"

/-- These are the items after the first one. -/
def compactItems : List Json → String
  | [] => ""
  | item :: rest => "," ++ compact item ++ compactItems rest

/-- These are the members after the first one. -/
def compactMembers : List (String × Json) → String
  | [] => ""
  | (key, value) :: rest => "," ++ quoted key ++ ":" ++ compact value ++ compactMembers rest

end

mutual

/-- The text leaves in pieces; the depth is that of the line on which the value starts. -/
def prettyPieces (depth : Nat) : Json → List String
  | .null => ["null"]
  | .boolean value => [if value then "true" else "false"]
  | .number value => [value.text]
  | .string value => [quoted value]
  | .array [] => ["[]"]
  | .array (item :: rest) =>
      ["[", "\n", indentation (depth + 1)] ++ prettyPieces (depth + 1) item ++
        prettyItems (depth + 1) rest ++ ["\n", indentation depth, "]"]
  | .object [] => ["\x7b\x7d"]
  | .object ((key, value) :: rest) =>
      ["\x7b", "\n", indentation (depth + 1), quoted key, ": "] ++
        prettyPieces (depth + 1) value ++ prettyMembers (depth + 1) rest ++
        ["\n", indentation depth, "\x7d"]

def prettyItems (depth : Nat) : List Json → List String
  | [] => []
  | item :: rest =>
      [",\n", indentation depth] ++ prettyPieces depth item ++ prettyItems depth rest

def prettyMembers (depth : Nat) : List (String × Json) → List String
  | [] => []
  | (key, value) :: rest =>
      [",\n", indentation depth, quoted key, ": "] ++ prettyPieces depth value ++
        prettyMembers depth rest

end

def pretty (tree : Json) : String := String.join (tree.prettyPieces 0)

end LightList.Json
