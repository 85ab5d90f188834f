/-
This file holds readers of JSON values that must have a given type.

A value of another type is described by what it is, with the place where its reading stopped.
-/

import LightList.Json.Skip
import LightList.Tags

namespace LightList.Json.Reader

/-- A fault of this kind gets its place from the enclosing value. -/
def refuse {Value : Type} (cause : Cause) : Reader Value := fail cause .enclosing

def foundOfNumber : Number → Found
  | .integer value => .integer value
  | .float value => .float value

/-- This describes the next value; a list or a map is told by its bracket alone. -/
def found : Reader Found := do
  match ← peek with
  | none => fail .expectedValue .ahead
  | some byte =>
      if byte = letterN then
        skipByte
        restOfNull
        return .null
      else if byte = letterT then
        skipByte
        restOfTrue
        return .boolean true
      else if byte = letterF then
        skipByte
        restOfFalse
        return .boolean false
      else if byte = minus ∨ isDigit byte then
        let value ← number
        return foundOfNumber value
      else if byte = quote then
        skipByte
        let value ← text
        return .text value
      else if byte = openBracket then return .sequence
      else if byte = openBrace then return .map
      else fail .expectedValue .ahead

/-- The value that follows is not what was wanted. -/
def wrongType {Value : Type} (wanted : String) : Reader Value :=
  settled do
    let other ← found
    refuse (.invalidType other wanted)

def wantedId : String := "i64"

/-- An identifier is an integer of 64 bits with a sign. -/
def idOfNumber : Number → Reader Int64
  | .integer value =>
      if value < Nat.pow 2 63 then pure (Int64.ofInt value)
      else refuse (.invalidValue (.integer value) wantedId)
  | .float value => refuse (.invalidType (.float value) wantedId)

/-- Any number is a float; an integer is rounded to the nearest one. -/
def floatOfNumber : Number → Float
  | .integer value => Float.ofInt value
  | .float value => value

/-- This reads a number that may be refused for its value. -/
def numberAs {Value : Type} (wanted : String) (accept : Number → Reader Value) : Reader Value := do
  match ← peekToken with
  | none => fail .valueEnded .ahead
  | some byte =>
      if byte = minus ∨ isDigit byte then
        settled do
          let value ← number
          accept value
      else wrongType wanted

def int64 : Reader Int64 := numberAs wantedId idOfNumber

def float : Reader Float := numberAs "f64" fun value => pure (floatOfNumber value)

/-- This reads a string that may be refused for its content. -/
def textAs {Value : Type} (wanted : String) (accept : String → Reader Value) : Reader Value := do
  match ← peekToken with
  | none => fail .valueEnded .ahead
  | some byte =>
      if byte = quote then
        settled do
          skipByte
          let value ← text
          accept value
      else wrongType wanted

def string : Reader String := textAs "a string" pure

/-- Null stands for an absent value. -/
def orNull {Value : Type} (reader : Reader Value) : Reader (Option Value) := do
  if (← peekToken) = some letterN then
    skipByte
    restOfNull
    return none
  else some <$> reader

/-- This reads null and nothing else. -/
def unit : Reader Unit := do
  match ← peekToken with
  | none => fail .valueEnded .ahead
  | some byte =>
      if byte = letterN then
        skipByte
        restOfNull
      else wrongType "unit"

def listOf {Value : Type} (item : Reader Value) : Reader (List Value) := do
  match ← peekToken with
  | none => fail .valueEnded .ahead
  | some byte =>
      if byte = openBracket then
        skipByte
        enclosed (items item) closeList
      else wrongType "a sequence"

/-- Members with the same key are all kept, in their order. -/
def entries {Value : Type} (value : Reader Value) : Reader (List (String × Value)) := do
  let reversed ← members
    (fun taken key => do
      takeColon
      let entry ← value
      return (key, entry) :: taken) []
  return reversed.reverse

/-- Of two members with the same key, the later one counts. -/
def tagMap : Reader Tags := do
  match ← peekToken with
  | none => fail .valueEnded .ahead
  | some byte =>
      if byte = openBrace then
        skipByte
        enclosed (Tags.ofList <$> entries string) closeObject
      else wrongType "a map"

/-- A structure stands as an object of its fields, or as a list of them in their order. -/
def record {Value : Type} (name : String) (ofObject ofList : Reader Value) : Reader Value := do
  match ← peekToken with
  | none => fail .valueEnded .ahead
  | some byte =>
      if byte = openBracket then
        skipByte
        enclosed ofList closeList
      else if byte = openBrace then
        skipByte
        enclosed ofObject closeObject
      else wrongType ("struct " ++ name)

/-- A field is read at its first occurrence and refused at the next. -/
def once {Value : Type} (name : String) (earlier : Option Value) (reader : Reader Value) :
    Reader (Option Value) :=
  match earlier with
  | some _ => refuse (.duplicateField name)
  | none => do
      takeColon
      some <$> reader

/-- A field that no structure knows is taken without being read. -/
def unknownField : Reader Unit := do
  takeColon
  skipValue

def required {Value : Type} (name : String) : Option Value → Reader Value
  | some value => pure value
  | none => refuse (.missingField name)

/-- A structure with this many fields ended before the field at this place. -/
def shortList (name : String) (fields : Nat) (count : Nat) : Cause :=
  let unit := if fields = 1 then "element" else "elements"
  .invalidLength count s!"struct {name} with {fields} {unit}"

/-- This reads the field at the given place of a structure that stands as a list. -/
def fieldAt {Value : Type} (name : String) (fields place : Nat) (reader : Reader Value) :
    Reader Value := do
  match ← item? reader (place = 0) with
  | some value => return value
  | none => refuse (shortList name fields place)

/-- This reads a field that may be missing at the end of the list. -/
def fieldOr {Value : Type} (place : Nat) (reader : Reader Value) (absent : Value) :
    Reader Value := do
  match ← item? reader (place = 0) with
  | some value => return value
  | none => return absent

/-- An object that names a variant opens with a key; nothing of an empty one can be read. -/
def variantKey : Reader Unit := do
  match ← peekToken with
  | none => fail .objectEnded .ahead
  | some byte =>
      if byte = quote then return ()
      else if byte = closeBrace then fail .expectedValue .ahead
      else fail .keyNotString .ahead

/-- This reads one of several names, as a string or as the key of an object that holds null. -/
def variant {Value : Type} (ofName? : String → Option Value) (known : List String) :
    Reader Value := do
  let name := textAs "variant identifier" fun name =>
    match ofName? name with
    | some value => pure value
    | none => refuse (.unknownVariant name known)
  match ← peekToken with
  | none => fail .valueEnded .ahead
  | some byte =>
      if byte = quote then name
      else if byte = openBrace then
        skipByte
        variantKey
        let value ← name
        takeColon
        unit
        match ← peekToken with
        | none => fail .objectEnded .behind
        | some last =>
            if last = closeBrace then
              skipByte
              return value
            else fail .expectedValue .behind
      else fail .expectedValue .ahead

/-- Only blanks may follow the value of a document. -/
def ended : Reader Unit := do
  match ← peekToken with
  | none => return ()
  | some _ => fail .trailingCharacters .ahead

/-- This reads a whole document. -/
def document {Value : Type} (reader : Reader Value) (bytes : List UInt8) : Except Error Value :=
  let whole : Reader Value := do
    let value ← reader
    ended
    return value
  match whole bytes with
  | .ok (value, _) => .ok value
  | .error fault => .error (fault.error bytes)

end LightList.Json.Reader
