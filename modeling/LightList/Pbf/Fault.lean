/-
This file holds why a PBF file is refused, and in which words.
-/

import LightList.FileFault

namespace LightList.Pbf

/--
This is what is wrong with the wire format of a message. Single bytes and whole contents that a
source cannot supply are told apart, and so are the two ways in which a number can be too long.
-/
inductive WireFault where
  | ended
  | exhausted
  | truncated
  | limitIncrease
  | limitOverflow
  | incorrectTag
  | incorrectVarint
  | tooLargeUnsigned (value : Nat)
  | tooLargeSigned (value : Int)
  | unexpectedWireType
  | invalidUtf8
  | tooNested
  | missingFields (message : String)
  | source (message : String)
deriving DecidableEq

def WireFault.message : WireFault → String
  | ended => "Unexpected EOF"
  | exhausted => "Unexpected end of file"
  | truncated => "Truncated message"
  | limitIncrease => "New limit must not be greater than current limit"
  | limitOverflow => "Limit overflow"
  | incorrectTag => "Incorrect tag"
  | incorrectVarint => "Incorrect varint"
  | tooLargeUnsigned value => s!"Value too large for u32: {value}"
  | tooLargeSigned value => s!"Value too large for i32: {value}"
  | unexpectedWireType => "Unexpected wire type"
  | invalidUtf8 => "Invalid UTF-8 sequence"
  | tooNested => "Over recursion limit"
  | missingFields message => s!"Message `{message}` is missing required fields"
  | source message => message

inductive Fault where
  | file (fault : FileFault)
  | headerSizeUnreadable
  | headerTooBig (size : Nat)
  | messageTooBig (size : Nat)
  | emptyBlob
  | wire (location : String) (fault : WireFault)
deriving DecidableEq

def Fault.message : Fault → String
  | file fault => fault.message
  | headerSizeUnreadable => "blob header size could not be decoded"
  | headerTooBig size => s!"blob header is too big: {size} bytes"
  | messageTooBig size => s!"blob message is too big: {size} bytes"
  | emptyBlob => "blob is missing fields 'raw' and 'zlib_data'"
  | wire location fault => s!"protobuf error at '{location}': {fault.message}"

end LightList.Pbf
