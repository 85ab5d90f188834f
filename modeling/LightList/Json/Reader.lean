/-
This file holds readers of JSON text and the steps that all of them are built from.

A reader takes a value off the front of the unread bytes. Loops are bounded by the bytes that were
unread when they began, since every round takes at least one of them.
-/

import LightList.Json.Fault

namespace LightList.Json

abbrev Reader (Value : Type) := StateT (List UInt8) (Except Fault) Value

namespace Reader

def fail {Value : Type} (cause : Cause) (mark : Mark) : Reader Value :=
  fun rest => .error ⟨cause, mark, rest⟩

/-- This skips blanks. -/
def blanks : Reader Unit := fun rest => .ok ((), rest.dropWhile isBlank)

/-- This looks at the next byte without taking it. -/
def peek : Reader (Option UInt8) := fun rest => .ok (rest.head?, rest)

/-- This takes the next byte, if there is one. -/
def skipByte : Reader Unit := fun rest => .ok ((), rest.tail)

/-- This skips blanks and looks at what follows. -/
def peekToken : Reader (Option UInt8) := do
  blanks
  peek

/-- This takes the digits that follow. -/
def skipDigits : Reader Unit := fun rest => .ok ((), rest.dropWhile isDigit)

/-- This takes the remaining letters of a literal name. -/
def letters : List UInt8 → Reader Unit
  | [] => pure ()
  | expected :: more => do
      match ← peek with
      | none => fail .valueEnded .behind
      | some byte =>
          skipByte
          if byte = expected then letters more else fail .expectedIdent .behind

def restOfNull : Reader Unit := letters [letterU, 0x6c, 0x6c]

def restOfTrue : Reader Unit := letters [letterR, letterU, 0x65]

def restOfFalse : Reader Unit := letters [0x61, 0x6c, 0x73, 0x65]

/-- A fault that names no place of its own gets the place where this reader stopped. -/
def settled {Value : Type} (reader : Reader Value) : Reader Value := fun input =>
  match reader input with
  | .ok result => .ok result
  | .error fault => .error (fault.settle fault.rest)

/-- This is what a reader leaves unread, whether it succeeds or fails. -/
def restAfter {Value : Type} (reader : Reader Value) (input : List UInt8) : List UInt8 :=
  match reader input with
  | .ok result => result.2
  | .error fault => fault.rest

/--
This reads what stands between brackets and then the closing one. A fault without a place of its own
is placed after the closing bracket as far as that can be read.
-/
def enclosed {Value : Type} (body : Reader Value) (close : Reader Unit) : Reader Value :=
  fun input =>
    match body input with
    | .ok (value, rest) =>
        match close rest with
        | .ok (_, final) => .ok (value, final)
        | .error fault => .error fault
    | .error fault => .error (fault.settle (restAfter close fault.rest))

def closeList : Reader Unit := do
  match ← peekToken with
  | none => fail .listEnded .ahead
  | some byte =>
      if byte = closeBracket then skipByte
      else if byte = comma then
        skipByte
        if (← peekToken) = some closeBracket then fail .trailingComma .ahead
        else fail .trailingCharacters .ahead
      else fail .trailingCharacters .ahead

def closeObject : Reader Unit := do
  match ← peekToken with
  | none => fail .objectEnded .ahead
  | some byte =>
      if byte = closeBrace then skipByte
      else if byte = comma then fail .trailingComma .ahead
      else fail .trailingCharacters .ahead

/-- This says whether an item follows, and takes the comma before every item but the first. -/
def atItem (isFirst : Bool) : Reader Bool := do
  match ← peekToken with
  | none => fail .listEnded .ahead
  | some byte =>
      if byte = closeBracket then return false
      else if isFirst then return true
      else if byte = comma then
        skipByte
        match ← peekToken with
        | none => fail .valueEnded .ahead
        | some next =>
            if next = closeBracket then fail .trailingComma .ahead else return true
      else fail .expectedListEnd .ahead

def itemsWithin {Value : Type} (item : Reader Value) :
    List UInt8 → Bool → List Value → Reader (List Value)
  | [], _, _ => fail .listEnded .ahead
  | _ :: bound, isFirst, taken => do
      if ← atItem isFirst then
        let value ← item
        itemsWithin item bound false (value :: taken)
      else return taken.reverse

/-- This reads the items of a list up to its closing bracket. -/
def items {Value : Type} (item : Reader Value) : Reader (List Value) :=
  fun input => itemsWithin item input true [] input

/-- This reads one item, or says that the list holds no further one. -/
def item? {Value : Type} (item : Reader Value) (isFirst : Bool) : Reader (Option Value) := do
  if ← atItem isFirst then
    let value ← item
    return some value
  else return none

/-- This says whether a member follows, and takes the comma before every member but the first. -/
def atMember (isFirst : Bool) : Reader Bool := do
  match ← peekToken with
  | none => fail .objectEnded .ahead
  | some byte =>
      if byte = closeBrace then return false
      else if isFirst then
        if byte = quote then return true else fail .keyNotString .ahead
      else if byte = comma then
        skipByte
        match ← peekToken with
        | none => fail .valueEnded .ahead
        | some next =>
            if next = quote then return true
            else if next = closeBrace then fail .trailingComma .ahead
            else fail .keyNotString .ahead
      else fail .expectedObjectEnd .ahead

/-- This takes the colon between a key and its value. -/
def takeColon : Reader Unit := do
  match ← peekToken with
  | none => fail .objectEnded .ahead
  | some byte => if byte = colon then skipByte else fail .expectedColon .ahead

end Reader

end LightList.Json
