/-
This file inflates zlib data: a header of two bytes, a deflate stream and a checksum.
-/

import LightList.Compression.Inflate

namespace LightList.Compression

/-- This is what a zlib stream holds, and what is wrong with it if it does not end well. -/
structure Inflated where
  content : List UInt8
  flaw : Option Flaw

def Flaw.message : Flaw → String
  | incomplete => "incomplete deflate stream"
  | corrupt => "corrupt deflate stream"

namespace Zlib

/-- The sums are taken modulo the largest prime below two to the sixteenth. -/
def checksumModulus : Nat := 65521

def checksum (content : Array UInt8) : Nat :=
  let sums := content.foldl
    (fun (sums : Nat × Nat) byte =>
      let low := (sums.1 + byte.toNat) % checksumModulus
      (low, (sums.2 + low) % checksumModulus)) (1, 0)
  sums.2 * Nat.pow 2 16 + sums.1

/-- Only deflate with a window of at most 32 KiB is read. -/
def isHeader (method flags : Nat) : Bool :=
  method % 16 = 8 && method / 16 ≤ 7 && (method * 256 + flags) % 31 = 0

def needsDictionary (flags : Nat) : Bool := flags / 32 % 2 = 1

/-- The checksum stands with its highest byte first. -/
def bigEndian : Nat → Inflater Nat
  | 0 => return 0
  | count + 1 => do
      let high ← Inflater.bits 8
      let low ← bigEndian count
      return high * Nat.pow 256 count + low

def stream : Inflater Unit := do
  let method ← Inflater.bits 8
  let flags ← Inflater.bits 8
  if !isHeader method flags then throw .corrupt
  else if needsDictionary flags then
    let _ ← Inflater.bits 32
    throw .corrupt
  else
    Inflater.blocks (← Inflater.bound)
    Inflater.align
    let sum ← bigEndian 4
    if sum = checksum (← get).output then return () else throw .corrupt

/-- The content is handed out in pieces of so many bytes. -/
def pieceSize : Nat := 4096

/-- These are the whole pieces before the one that holds the last byte. -/
def piecesBefore (output : Array UInt8) : List UInt8 :=
  output.toList.take ((output.size - 1) / pieceSize * pieceSize)

/--
A corrupt stream yields the pieces before the one where that shows; a stream that ends too early
yields all that came before.
-/
def inflate (bytes : List UInt8) : Inflated :=
  match stream.run ⟨.ofBytes bytes, #[]⟩ with
  | (.ok _, state) => ⟨state.output.toList, none⟩
  | (.error .incomplete, state) => ⟨state.output.toList, some .incomplete⟩
  | (.error .corrupt, state) => ⟨piecesBefore state.output, some .corrupt⟩

end Zlib

end LightList.Compression
