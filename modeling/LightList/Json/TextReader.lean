/-
This file reads JSON strings.

The bytes between the quotes are collected with their escapes resolved. Only when the closing quote
is reached must they be UTF-8.
-/

import LightList.Json.Reader
import LightList.Text.Utf8

namespace LightList.Json.Reader

def codePointBytes (code : Nat) : List UInt8 := String.utf8EncodeChar (Char.ofNat code)

/-- Four bytes are taken even when they are no hexadecimal digits. -/
def hexCode : Reader Nat := fun input =>
  match input with
  | first :: second :: third :: fourth :: rest =>
      match hexValue? first, hexValue? second, hexValue? third, hexValue? fourth with
      | some thousands, some hundreds, some tens, some ones =>
          .ok (((thousands * 16 + hundreds) * 16 + tens) * 16 + ones, rest)
      | _, _, _, _ => .error ⟨.invalidEscape, .behind, rest⟩
  | _ => .error ⟨.stringEnded, .behind, []⟩

def isLeadingSurrogate (code : Nat) : Bool := 0xd800 ≤ code && code ≤ 0xdbff

def isTrailingSurrogate (code : Nat) : Bool := 0xdc00 ≤ code && code ≤ 0xdfff

/-- This takes one given byte of the second escape of a surrogate pair. -/
def pairByte (expected : UInt8) : Reader Unit := do
  match ← peek with
  | none => fail .stringEnded .behind
  | some byte =>
      skipByte
      if byte = expected then return () else fail .hexEscapeEnded .behind

/-- A leading surrogate must be followed by the escape of a trailing one. -/
def unicodeEscape : Reader (List UInt8) := do
  let first ← hexCode
  if isTrailingSurrogate first then fail .loneSurrogate .behind
  else if isLeadingSurrogate first then
    pairByte backslash
    pairByte letterU
    let second ← hexCode
    if isTrailingSurrogate second then
      return codePointBytes ((first - 0xd800) * 0x400 + (second - 0xdc00) + 0x10000)
    else fail .loneSurrogate .behind
  else return codePointBytes first

/-- These are the escapes of one letter and the bytes that they stand for. -/
def shortEscape? (letter : UInt8) : Option UInt8 :=
  if letter = quote ∨ letter = backslash ∨ letter = slash then some letter
  else if letter = letterB then some 0x08
  else if letter = letterF then some 0x0c
  else if letter = letterN then some lineFeed
  else if letter = letterR then some 0x0d
  else if letter = letterT then some 0x09
  else none

/-- This reads an escape after its backslash. -/
def escape : Reader (List UInt8) := do
  match ← peek with
  | none => fail .stringEnded .behind
  | some letter =>
      skipByte
      if letter = letterU then unicodeEscape
      else
        match shortEscape? letter with
        | some byte => return [byte]
        | none => fail .invalidEscape .behind

/-- These bytes stand for themselves in a string. -/
def isTextByte (byte : UInt8) : Bool := 0x20 ≤ byte && byte != quote && byte != backslash

/-- This takes the bytes up to the next quote or backslash. -/
def run : Reader (List UInt8) := fun input =>
  match input.dropWhile isTextByte with
  | [] => .error ⟨.stringEnded, .behind, []⟩
  | byte :: rest =>
      if byte < 0x20 then .error ⟨.controlCharacter, .behind, rest⟩
      else .ok (input.takeWhile isTextByte, byte :: rest)

/-- The bytes taken so far stand in reverse. -/
def textWithin : List UInt8 → List UInt8 → Reader (List UInt8)
  | [], _ => fail .stringEnded .behind
  | _ :: bound, taken => do
      let bytes ← run
      let next ← peek
      skipByte
      if next = some quote then return (bytes.reverse ++ taken).reverse
      else
        let escaped ← escape
        textWithin bound (escaped.reverse ++ (bytes.reverse ++ taken))

def textOfBytes? (bytes : List UInt8) : Option String := String.fromUTF8? ⟨bytes.toArray⟩

/--
The place of a fault is counted back from the closing quote by the bytes that are left from the
first wrong one, although an escape is longer than the bytes that it stands for.
-/
def invalidText (bytes input rest : List UInt8) : Fault :=
  let back := (Text.Utf8.invalidTail bytes).length + 1 + rest.length
  ⟨.invalidCodePoint, .ahead, input.drop (input.length - back)⟩

/-- This reads a string after its opening quote. -/
def text : Reader String := fun input =>
  match textWithin input [] input with
  | .error fault => .error fault
  | .ok (bytes, rest) =>
      match textOfBytes? bytes with
      | some text => .ok (text, rest)
      | none => .error (invalidText bytes input rest)

/-- This takes an escape whose value does not matter. -/
def skipEscape : Reader Unit := do
  match ← peek with
  | none => fail .stringEnded .behind
  | some letter =>
      skipByte
      if letter = letterU then
        let _ ← hexCode
        return ()
      else if (shortEscape? letter).isSome then return ()
      else fail .invalidEscape .behind

def skipTextWithin : List UInt8 → Reader Unit
  | [] => fail .stringEnded .behind
  | _ :: bound => do
      match ← peek with
      | none => fail .stringEnded .behind
      | some byte =>
          if byte < 0x20 then fail .controlCharacter .behind
          else
            skipByte
            if byte = quote then return ()
            else if byte = backslash then
              skipEscape
              skipTextWithin bound
            else skipTextWithin bound

/-- This takes a string after its opening quote without reading it. -/
def skipText : Reader Unit := fun input => skipTextWithin input input

/-- This reads the key of the next member, or says that the object holds no further one. -/
def key? (isFirst : Bool) : Reader (Option String) := do
  if ← atMember isFirst then
    skipByte
    let key ← text
    return some key
  else return none

def membersWithin {State : Type} (member : State → String → Reader State) :
    List UInt8 → Bool → State → Reader State
  | [], _, _ => fail .objectEnded .ahead
  | _ :: bound, isFirst, state => do
      match ← key? isFirst with
      | none => return state
      | some key =>
          let next ← member state key
          membersWithin member bound false next

/-- This reads the members of an object up to its closing brace; each reader takes its own colon. -/
def members {State : Type} (member : State → String → Reader State) (start : State) :
    Reader State :=
  fun input => membersWithin member input true start input

end LightList.Json.Reader
