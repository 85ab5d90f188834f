/-
This file reads the wire format of PBF messages: tagged fields with varints, fixed words and
length-delimited contents.
-/

import LightList.Pbf.Span

namespace LightList.Pbf

/-- The number names a field and the kind says how its value is written. -/
structure Tag where
  number : Nat
  wireType : Nat
deriving DecidableEq

namespace Wire

abbrev Reader (Value : Type) := StateT Span (Except WireFault) Value

def fail {Value : Type} (fault : WireFault) : Reader Value := fun _ => .error fault

/-- The bytes of a varint can end before it does, or it has more of them than it may have. -/
inductive VarintFlaw where
  | unfinished
  | tooLong

/--
Each byte holds seven bits, the lowest first, and all but the last are marked. This is the value of
the first varint and the number of its bytes.
-/
def varintOf : Nat → List UInt8 → Except VarintFlaw (Nat × Nat)
  | 0, _ => .error .tooLong
  | _ + 1, [] => .error .unfinished
  | limit + 1, byte :: rest =>
      if byte < 0x80 then .ok (byte.toNat, 1)
      else
        match varintOf limit rest with
        | .error flaw => .error flaw
        | .ok (value, length) => .ok (byte.toNat - 128 + 128 * value, length + 1)

/-- A number of 64 bits has at most so many bytes. -/
def longLimit : Nat := 10

/-- A number of 32 bits has at most so many bytes. -/
def shortLimit : Nat := 5

def uint64 : Reader UInt64 := fun span =>
  match varintOf longLimit span.bytes with
  | .error .unfinished => .error span.byteFault
  | .error .tooLong => .error .incorrectVarint
  | .ok (value, length) =>
      if value < Nat.pow 2 64 then .ok (value.toUInt64, span.advance length)
      else .error .incorrectVarint

/-- A short number that is not at hand is read as a long one, and its value is checked later. -/
def narrowed : Reader UInt32 := do
  let value ← uint64
  if value.toNat < Nat.pow 2 32 then return value.toUInt32
  else fail (.tooLargeUnsigned value.toNat)

/-- A short number that is at hand may not have more bytes than it needs. -/
def uint32 : Reader UInt32 := fun span =>
  let atHand := span.atHand shortLimit
  match varintOf shortLimit atHand with
  | .ok (value, length) =>
      if value < Nat.pow 2 32 then .ok (value.toUInt32, span.advance length)
      else .error .incorrectVarint
  | .error .tooLong => .error .incorrectVarint
  | .error .unfinished => narrowed span

def int64 : Reader Int64 := do
  let value ← uint64
  return value.toInt64

/-- A signed number is read as a long one, and its value is checked after that. -/
def int32 : Reader Int32 := do
  let value ← int64
  if value.toInt32.toInt64 = value then return value.toInt32
  else fail (.tooLargeSigned value.toInt)

/-- The lowest bit holds the sign, so small values of either sign are short. -/
def zigzag (value : UInt64) : Int64 :=
  let half := (value >>> 1).toInt64
  if value &&& 1 = 0 then half else -half - 1

def sint64 : Reader Int64 := do
  let value ← uint64
  return zigzag value

/-- This takes so many bytes; the fault is that of an end declared before them. -/
def take (count : Nat) (declared : WireFault) : Reader (List UInt8) := fun span =>
  let taken := span.bytes.take count
  if taken.length = count then .ok (taken, span.advanceAtOnce count)
  else if span.isDeclared (count - taken.length) then .error (span.source.contentFault count)
  else .error declared

/-- A fixed word has so many bytes. -/
def word (count : Nat) : Reader Unit := do
  let _ ← take count .ended
  return ()

def bytes : Reader (List UInt8) := do
  let length ← uint32
  take length.toNat .truncated

def text : Reader String := do
  let content ← bytes
  match String.fromUTF8? ⟨content.toArray⟩ with
  | some text => return text
  | none => fail .invalidUtf8

/-- No position in a source lies beyond this one. -/
def lastPosition : Nat := Nat.pow 2 64 - 1

/-- This is the span of a nested value of the given length. -/
def nestedSpan (length : Nat) (span : Span) : Except WireFault Span :=
  if lastPosition < span.position + length then .error .limitOverflow
  else
    let taken := span.bytes.take length
    let excess := length - taken.length
    if taken.length = length then .ok { span with bytes := taken, ending := .complete }
    else if span.isDeclared excess then .ok { span with ending := .short excess }
    else .error .limitIncrease

/-- This reads a value inside its declared length. -/
def nested {Value : Type} (body : Reader Value) : Reader Value := do
  let length ← uint64
  fun span =>
    match nestedSpan length.toNat span with
    | .error fault => .error fault
    | .ok inner =>
        match body inner with
        | .error fault => .error fault
        | .ok (value, final) =>
            .ok (value, { final with
              bytes := span.bytes.drop length.toNat, ending := span.ending, depth := span.depth })

/-- A nested message is one more value that is open. -/
def message {Value : Type} (body : Reader Value) : Reader Value :=
  nested fun span => body { span with depth := span.depth + 1 }

/-- The declared end of a value needs no look at the source. -/
def atEnd : Reader Bool := fun span =>
  if span.bytes.isEmpty then
    match span.ending, span.source.flaw? with
    | .complete, _ | _, none => .ok (true, span)
    | _, some flaw => .error flaw
  else .ok (false, span)

def tag : Reader Tag := do
  let value ← uint32
  let code := value.toNat
  if code / 8 = 0 ∨ 5 < code % 8 then fail .incorrectTag
  else return ⟨code / 8, code % 8⟩

/-- This takes a value that is no group. -/
def skipSimple (wireType : Nat) : Reader Unit := do
  match wireType with
  | 0 =>
      let _ ← uint64
      return ()
  | 1 => word 8
  | 2 =>
      let _ ← bytes
      return ()
  | 5 => word 4
  | _ => fail .unexpectedWireType

/-- So many values may be open at once. -/
def depthLimit : Nat := 100

/-- The depth counts the groups that are open; the bytes unread bound the loop. -/
def skipGroupWithin : List UInt8 → Nat → Reader Unit
  | [], _ => fun span => .error span.byteFault
  | _ :: bound, depth => fun span =>
      if depthLimit < span.depth + depth then .error .tooNested
      else
        match tag span with
        | .error fault => .error fault
        | .ok (next, span) =>
            if next.wireType = 4 then
              if depth ≤ 1 then .ok ((), span) else skipGroupWithin bound (depth - 1) span
            else if next.wireType = 3 then skipGroupWithin bound (depth + 1) span
            else
              match skipSimple next.wireType span with
              | .error fault => .error fault
              | .ok (_, span) => skipGroupWithin bound depth span

/-- This takes the value of a field that nobody reads. -/
def skip (wireType : Nat) : Reader Unit :=
  if wireType = 3 then
    fun span => skipGroupWithin (0 :: 0 :: span.bytes) 1 span
  else skipSimple wireType

def fieldsWithin {State : Type} (field : State → Tag → Reader State) :
    List UInt8 → State → Reader State
  | [], state => do
      let _ ← atEnd
      return state
  | _ :: bound, state => do
      if ← atEnd then return state
      else
        let next ← tag
        let state ← field state next
        fieldsWithin field bound state

/-- This reads all fields of a message in their order. -/
def fields {State : Type} (field : State → Tag → Reader State) (start : State) : Reader State :=
  fun span => fieldsWithin field span.bytes start span

/-- The look for a further value brings the next piece to hand. -/
def refill : Reader Unit := fun span => .ok ((), span.refill)

def itemsWithin {Value : Type} (item : Reader Value) :
    List UInt8 → Array Value → Reader (Array Value)
  | [], taken => do
      let _ ← atEnd
      return taken
  | _ :: bound, taken => do
      if ← atEnd then return taken
      else
        refill
        let value ← item
        itemsWithin item bound (taken.push value)

/-- Packed values follow each other without tags. -/
def packed {Value : Type} (item : Reader Value) : Reader (Array Value) :=
  nested fun span => itemsWithin item span.bytes #[] span

/-- A repeated number stands alone or packed, and the two may be mixed. -/
def repeated {Value : Type} (wireType : Nat) (item : Reader Value) (earlier : Array Value) :
    Reader (Array Value) := do
  if wireType = 2 then
    let more ← packed item
    return earlier ++ more
  else
    let value ← item
    return earlier.push value

/-- A repeated number is written as a varint or as packed varints. -/
def isRepeatedVarint (wireType : Nat) : Bool := wireType = 0 || wireType = 2

def required {Value : Type} (message : String) : Option Value → Reader Value
  | some value => return value
  | none => fail (.missingFields message)

/-- This reads the message that a source holds. -/
def parse {Value : Type} (message : Reader Value) (bytes : List UInt8) (source : Source) :
    Except WireFault Value :=
  match message (.ofSource bytes source) with
  | .ok (value, _) => .ok value
  | .error fault => .error fault

end Wire

end LightList.Pbf
