/-
This file tells where a sequence of bytes stops being UTF-8.
-/

namespace LightList.Text.Utf8

def isWithin (low high byte : UInt8) : Bool := low ≤ byte && byte ≤ high

def isContinuation (byte : UInt8) : Bool := isWithin 0x80 0xbf byte

/-- This takes the given number of continuation bytes. -/
def dropContinuations? : Nat → List UInt8 → Option (List UInt8)
  | 0, rest => some rest
  | _ + 1, [] => none
  | count + 1, byte :: rest => if isContinuation byte then dropContinuations? count rest else none

/-- The byte after the first one has a range of its own; more continuation bytes may follow. -/
def dropAfter? (low high : UInt8) (count : Nat) : List UInt8 → Option (List UInt8)
  | [] => none
  | byte :: rest => if isWithin low high byte then dropContinuations? count rest else none

/-- This takes the encoding of one character off the front, if there is one. -/
def dropChar? : List UInt8 → Option (List UInt8)
  | [] => none
  | byte :: rest =>
      if byte < 0x80 then some rest
      else if isWithin 0xc2 0xdf byte then dropAfter? 0x80 0xbf 0 rest
      else if byte = 0xe0 then dropAfter? 0xa0 0xbf 1 rest
      else if byte = 0xed then dropAfter? 0x80 0x9f 1 rest
      else if isWithin 0xe1 0xef byte then dropAfter? 0x80 0xbf 1 rest
      else if byte = 0xf0 then dropAfter? 0x90 0xbf 2 rest
      else if isWithin 0xf1 0xf3 byte then dropAfter? 0x80 0xbf 2 rest
      else if byte = 0xf4 then dropAfter? 0x80 0x8f 2 rest
      else none

/-- The bound is the bytes themselves, since every character takes at least one of them. -/
def invalidTailWithin : List UInt8 → List UInt8 → List UInt8
  | [], rest => rest
  | _ :: bound, rest =>
      match dropChar? rest with
      | some next => invalidTailWithin bound next
      | none => rest

/-- This is what follows the longest valid part; nothing does when all is valid. -/
def invalidTail (bytes : List UInt8) : List UInt8 := invalidTailWithin bytes bytes

end LightList.Text.Utf8
