/-
This file inflates deflate streams.

A stream is a row of blocks. A block is stored as it is, or its literals and copies are written in
canonical Huffman codes, either fixed ones or ones that the block describes.
-/

import LightList.Compression.BitStream

namespace LightList.Compression

/-- The input can end too early, or say something that no stream says. -/
inductive Flaw where
  | incomplete
  | corrupt
deriving DecidableEq

structure InflateState where
  stream : BitStream
  output : Array UInt8

/-- What has been inflated before a flaw is kept. -/
abbrev Inflater (Value : Type) := ExceptT Flaw (StateM InflateState) Value

namespace Inflater

def bit : Inflater Nat := do
  let state ← get
  match state.stream.next? with
  | none => throw .incomplete
  | some (bit, stream) =>
      set { state with stream }
      return bit.toNat

/-- The first bit counts least. -/
def bits : Nat → Inflater Nat
  | 0 => return 0
  | count + 1 => do
      let low ← bit
      let high ← bits count
      return low + 2 * high

def emit (byte : UInt8) : Inflater Unit :=
  modify fun state => { state with output := state.output.push byte }

/-- Codes of one length follow each other; the symbols are sorted by length and then by value. -/
structure Code where
  counts : List Nat
  symbols : Array Nat

/-- Codes have at most this many bits. -/
def longestCode : Nat := 15

def Code.ofLengths (lengths : List Nat) : Code :=
  let numbered := lengths.zipIdx
  { counts := (List.range longestCode).map fun index => lengths.count (index + 1)
    symbols := ((List.range longestCode).flatMap fun index =>
      (numbered.filter fun entry => entry.1 = index + 1).map Prod.snd).toArray }

/-- This is the share of all codes of the longest length that these codes use up. -/
def Code.used (counts : List Nat) : Nat :=
  counts.foldl (fun used count => 2 * used + count) 0

/-- A code that uses up its space exactly is complete. -/
def Code.isComplete (code : Code) : Bool := Code.used code.counts = Nat.pow 2 longestCode

def Code.isEmpty (code : Code) : Bool := code.symbols.isEmpty

/-- One symbol alone may leave space if its code is a single bit, and so may no symbol at all. -/
def Code.isUsable (code : Code) : Bool :=
  code.isComplete || code.isEmpty || (code.counts.head? = some 1 && code.symbols.size = 1)

/-- The code so far is compared with the first code of each length. -/
def symbolFrom (symbols : Array Nat) : List Nat → Nat → Nat → Nat → Inflater Nat
  | [], _, _, _ => throw .corrupt
  | count :: longer, code, first, index => do
      let code := code + (← bit)
      if code < first + count then
        match symbols[index + (code - first)]? with
        | some symbol => return symbol
        | none => throw .corrupt
      else if longer.all fun more => more = 0 then throw .corrupt
      else symbolFrom symbols longer (2 * code) (2 * (first + count)) (index + count)

def Code.symbol (code : Code) : Inflater Nat := symbolFrom code.symbols code.counts 0 0 0

def lengthBases : List (Nat × Nat) :=
  [(3, 0), (4, 0), (5, 0), (6, 0), (7, 0), (8, 0), (9, 0), (10, 0), (11, 1), (13, 1), (15, 1),
    (17, 1), (19, 2), (23, 2), (27, 2), (31, 2), (35, 3), (43, 3), (51, 3), (59, 3), (67, 4),
    (83, 4), (99, 4), (115, 4), (131, 5), (163, 5), (195, 5), (227, 5), (258, 0)]

def distanceBases : List (Nat × Nat) :=
  [(1, 0), (2, 0), (3, 0), (4, 0), (5, 1), (7, 1), (9, 2), (13, 2), (17, 3), (25, 3), (33, 4),
    (49, 4), (65, 5), (97, 5), (129, 6), (193, 6), (257, 7), (385, 7), (513, 8), (769, 8),
    (1025, 9), (1537, 9), (2049, 10), (3073, 10), (4097, 11), (6145, 11), (8193, 12), (12289, 12),
    (16385, 13), (24577, 13)]

/-- A base is raised by the extra bits that follow its symbol. -/
def based (bases : List (Nat × Nat)) (index : Nat) : Inflater Nat :=
  match bases[index]? with
  | none => throw .corrupt
  | some (base, extra) => do
      let more ← bits extra
      return base + more

/-- Nothing lies before the first byte. -/
def copy (distance : Nat) : Nat → Inflater Unit
  | 0 => return ()
  | count + 1 => do
      let state ← get
      let size := state.output.size
      if distance ≤ size then
        emit (state.output[size - distance]?.getD 0)
        copy distance count
      else throw .corrupt

def endOfBlock : Nat := 256

/-- The bound is the number of bits left. -/
def symbols (literals distances : Code) : Nat → Inflater Unit
  | 0 => throw .incomplete
  | bound + 1 => do
      let symbol ← literals.symbol
      if symbol < endOfBlock then
        emit symbol.toUInt8
        symbols literals distances bound
      else if symbol = endOfBlock then return ()
      else
        let length ← based lengthBases (symbol - endOfBlock - 1)
        let distance ← based distanceBases (← distances.symbol)
        copy distance length
        symbols literals distances bound

def bound : Inflater Nat := do
  return (← get).stream.size + 1

def fixedLiterals : Code :=
  .ofLengths (List.replicate 144 8 ++ List.replicate 112 9 ++ List.replicate 24 7 ++
    List.replicate 8 8)

def fixedDistances : Code := .ofLengths (List.replicate 32 5)

/-- The lengths of the code that codes the other lengths come in this order. -/
def lengthOrder : List Nat := [16, 17, 18, 0, 8, 7, 9, 6, 10, 5, 11, 4, 12, 3, 13, 2, 14, 1, 15]

def lengthsOfThree : Nat → Inflater (List Nat)
  | 0 => return []
  | count + 1 => do
      let first ← bits 3
      let more ← lengthsOfThree count
      return first :: more

def lengthCode (given : List Nat) : Code :=
  let pairs := lengthOrder.zip given
  .ofLengths ((List.range 19).map fun symbol => (pairs.lookup symbol).getD 0)

/-- A length stands for itself, repeats the one before it, or makes a row of zeros. -/
def lengthRun (code : Code) (earlier : Array Nat) : Inflater (List Nat) := do
  let symbol ← code.symbol
  if symbol < 16 then return [symbol]
  else if symbol = 16 then
    let more ← bits 2
    match earlier.back? with
    | none => throw .corrupt
    | some length => return List.replicate (3 + more) length
  else if symbol = 17 then
    let more ← bits 3
    return List.replicate (3 + more) 0
  else
    let more ← bits 7
    return List.replicate (11 + more) 0

/-- A row may not run past the number of lengths that the block announces. -/
def codeLengths (code : Code) (wanted : Nat) : Nat → Array Nat → Inflater (Array Nat)
  | 0, _ => throw .corrupt
  | bound + 1, earlier => do
      if earlier.size = wanted then return earlier
      else if wanted < earlier.size then throw .corrupt
      else
        let run ← lengthRun code earlier
        codeLengths code wanted bound (earlier ++ run)

/--
These are the lengths of all codes of a block. A code without symbols is no fault by itself: each
bit then stands for a length of zero.
-/
def allLengths (code : Code) (wanted : Nat) : Inflater (List Nat) := do
  if code.isEmpty then
    let _ ← bits wanted
    return List.replicate wanted 0
  else if code.isComplete then
    let lengths ← codeLengths code wanted (wanted + 1) #[]
    return lengths.toList
  else throw .corrupt

/-- A block must be able to end. -/
def dynamicCodes : Inflater (Code × Code) := do
  let literalCount := 257 + (← bits 5)
  let distanceCount := 1 + (← bits 5)
  let givenCount := 4 + (← bits 4)
  if 286 < literalCount ∨ 30 < distanceCount then throw .corrupt
  else
    let given ← lengthsOfThree givenCount
    let lengths ← allLengths (lengthCode given) (literalCount + distanceCount)
    let literals := Code.ofLengths (lengths.take literalCount)
    let distances := Code.ofLengths (lengths.drop literalCount)
    let canEnd := lengths[endOfBlock]? != some 0
    if canEnd ∧ literals.isUsable ∧ distances.isUsable then return (literals, distances)
    else throw .corrupt

def align : Inflater Unit := modify fun state => { state with stream := state.stream.aligned }

def storedBytes : Nat → Inflater Unit
  | 0 => return ()
  | count + 1 => do
      let byte ← bits 8
      emit byte.toUInt8
      storedBytes count

/-- The length of a stored block comes twice, the second time with all bits flipped. -/
def stored : Inflater Unit := do
  align
  let length ← bits 16
  let flipped ← bits 16
  if length + flipped = 0xffff then storedBytes length else throw .corrupt

def block : Inflater Unit := do
  match ← bits 2 with
  | 0 => stored
  | 1 => symbols fixedLiterals fixedDistances (← bound)
  | 2 =>
      let codes ← dynamicCodes
      symbols codes.1 codes.2 (← bound)
  | _ => throw .corrupt

/-- The first bit of a block says whether it is the last one. -/
def blocks : Nat → Inflater Unit
  | 0 => throw .incomplete
  | bound + 1 => do
      let isLast ← bit
      block
      if isLast = 1 then return () else blocks bound

end Inflater

end LightList.Compression
