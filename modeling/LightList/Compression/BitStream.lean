/-
This file reads bits from bytes, the lowest bit of each byte first.
-/

namespace LightList.Compression

/-- The pending bits belong to the byte before the unread ones. -/
structure BitStream where
  pending : List Bool
  bytes : List UInt8

namespace BitStream

def ofBytes (bytes : List UInt8) : BitStream := ⟨[], bytes⟩

def bitsOf (byte : UInt8) : List Bool :=
  (List.range 8).map fun index => byte.toNat.testBit index

def next? (stream : BitStream) : Option (Bool × BitStream) :=
  match stream.pending with
  | bit :: rest => some (bit, { stream with pending := rest })
  | [] =>
      match stream.bytes with
      | [] => none
      | byte :: rest =>
          match bitsOf byte with
          | [] => none
          | bit :: pending => some (bit, ⟨pending, rest⟩)

/-- The rest of a byte that has been begun is dropped. -/
def aligned (stream : BitStream) : BitStream := { stream with pending := [] }

/-- Every round of reading takes at least one of so many bits. -/
def size (stream : BitStream) : Nat := stream.pending.length + 8 * stream.bytes.length

end BitStream

end LightList.Compression
