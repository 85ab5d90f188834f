/-
This file reads PBF files: a row of blobs, each after a header that has its length in front of it.

Fewer than four bytes where a length should stand are the end of the file. A blob of an unknown kind
is passed over.
-/

import LightList.Compression.Zlib
import LightList.Pbf.Extract

namespace LightList.Pbf

/-- A header must be smaller than this. -/
def headerLimit : Nat := 64 * 1024

/-- A raw message must be smaller than this. -/
def messageLimit : Nat := 32 * 1024 * 1024

/-- A piece of a blob has at most so many bytes. -/
def pieceSize : Nat := 4096

/-- A file is held in parts of so many bytes, and no piece reaches from one part into the next. -/
def partSize : Nat := 8192

/-- The pieces start at the given positions of the file and of its part; the bound ends the row. -/
def pieceEndsWithin : Nat → Nat → Nat → Nat → List Nat
  | 0, _, _, _ => []
  | bound + 1, start, position, length =>
      if length ≤ position then []
      else
        let room := partSize - (start + position) % partSize
        let next := min length (position + min pieceSize room)
        next :: pieceEndsWithin bound start next length

/-- This is a stretch of a file of the given length that starts at the given position. -/
def stretch (start length : Nat) : Source :=
  .pieces (pieceEndsWithin length start 0 length) none

/-- A flaw in compressed data shows when the message needs what lies behind it. -/
def inflatedSource (inflated : Compression.Inflated) : Source :=
  .pieces (pieceEndsWithin inflated.content.length 0 0 inflated.content.length)
    (inflated.flaw.map fun flaw => .source flaw.message)

/-- This reads the message that a blob holds. -/
def decode {Value : Type} (message : Wire.Reader Value) : Option BlobData → Except Fault Value
  | some (.raw content) =>
      if content.length < messageLimit then
        (Wire.parse message content .memory).mapError (.wire "raw blob data")
      else .error (.messageTooBig content.length)
  | some (.zlib content) =>
      let inflated := Compression.Zlib.inflate content
      (Wire.parse message inflated.content (inflatedSource inflated)).mapError
        (.wire "blob zlib data")
  | _ => .error .emptyBlob

/-- Header blocks are checked, data blocks give elements, and other kinds give nothing. -/
def blobElements (header : BlobHeader) (data : Option BlobData) : Except Fault (List Element) :=
  if header.kind = "OSMHeader" then
    match decode Wire.headerBlock data with
    | .error fault => .error fault
    | .ok _ => .ok []
  else if header.kind = "OSMData" then
    match decode Wire.block data with
    | .error fault => .error fault
    | .ok block => .ok block.elements
  else .ok []

/-- A negative size means all that is left. -/
def contentOf (size : Int32) (rest : List UInt8) : List UInt8 × List UInt8 :=
  if size < 0 then (rest, []) else rest.splitAt size.toInt.toNat

/-- This is one blob with its header, its place in the file, and what follows it. -/
structure Framed where
  header : BlobHeader
  content : List UInt8
  start : Nat
  rest : List UInt8

namespace Framed

/-- A header that is cut short by the end of the file may still be a message. -/
def ofFile (size start : Nat) (rest : List UInt8) : Except Fault Framed :=
  if headerLimit ≤ size then .error (.headerTooBig size)
  else
    let parts := rest.splitAt size
    match Wire.parse Wire.blobHeader parts.1 (stretch start parts.1.length) with
    | .error fault => .error (.wire "blob header" fault)
    | .ok header =>
        let content := contentOf header.contentSize parts.2
        .ok ⟨header, content.1, start + parts.1.length, content.2⟩

def elements (framed : Framed) : Except Fault (List Element) :=
  match Wire.parse Wire.blob framed.content (stretch framed.start framed.content.length) with
  | .error fault => .error (.wire "blob content" fault)
  | .ok data => blobElements framed.header data

/-- This is where the next blob starts. -/
def finish (framed : Framed) : Nat := framed.start + framed.content.length

end Framed

/-- The length of a header stands with its highest byte first. -/
def headerSize (first second third fourth : UInt8) : Nat :=
  ((first.toNat * 256 + second.toNat) * 256 + third.toNat) * 256 + fourth.toNat

/-- A header comes after its length. -/
def lengthSize : Nat := 4

/-- Each blob takes the bytes of its length at least, so the bytes bound the loop. -/
def elementsWithin :
    List UInt8 → Nat → List UInt8 → Array Element → Except Fault (List Element)
  | _ :: bound, start, first :: second :: third :: fourth :: rest, earlier =>
      match Framed.ofFile (headerSize first second third fourth) (start + lengthSize) rest with
      | .error fault => .error fault
      | .ok framed =>
          match framed.elements with
          | .error fault => .error fault
          | .ok elements =>
              elementsWithin bound framed.finish framed.rest (earlier ++ elements)
  | _, _, _, earlier => .ok earlier.toList

/-- This reads the elements of a file in their order. -/
def read (bytes : List UInt8) : Except Fault (List Element) := elementsWithin bytes 0 bytes #[]

end LightList.Pbf
