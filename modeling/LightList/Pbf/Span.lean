/-
This file holds the unread bytes of a message and how its source hands them out.

A source is either held in memory as a whole or hands out one piece after the other. A nested value
has a declared length. The outermost message has none and lasts as long as its source does, and what
is nested in it can be cut short by the end of that source.
-/

import LightList.Pbf.Fault

namespace LightList.Pbf

/-- Pieces end at ascending positions; a flaw shows when more is wanted than the last one holds. -/
inductive Source where
  | memory
  | pieces (ends : List Nat) (flaw : Option WireFault)

namespace Source

/-- This is where the piece ends that holds the byte at the given position. -/
def pieceEnd (source : Source) (position : Nat) : Nat :=
  match source with
  | memory => position
  | pieces ends _ => (ends.find? fun pieceEnd => position < pieceEnd).getD position

def flaw? : Source → Option WireFault
  | memory => none
  | pieces _ flaw => flaw

/-- This is the fault of a single byte beyond the end of a source. -/
def byteFault (source : Source) : WireFault := source.flaw?.getD .ended

/-- So many bytes at once are taken piece by piece and not as one. -/
def largeContent : Nat := 10000000

/-- This is the fault of a content of so many bytes that runs past the end of a source. -/
def contentFault (source : Source) (length : Nat) : WireFault :=
  match source with
  | pieces _ (some flaw) => flaw
  | memory => if length < largeContent then .ended else .truncated
  | pieces _ none => if length < largeContent then .exhausted else .truncated

end Source

/-- This says how the bytes of a span end: as declared, too early by so many bytes, or just so. -/
inductive Ending where
  | complete
  | short (missing : Nat)
  | unbounded
deriving DecidableEq

/--
These are the unread bytes of a message. Positions count from the start of the source; the bytes
before the position `held` are at hand. The depth is the number of values that are open.
-/
structure Span where
  bytes : List UInt8
  ending : Ending
  position : Nat
  held : Nat
  depth : Nat
  source : Source

namespace Span

/-- The outermost message lasts as long as its source. -/
def ofSource (bytes : List UInt8) (source : Source) : Span :=
  let held :=
    match source with
    | .memory => bytes.length
    | .pieces _ _ => 0
  ⟨bytes, .unbounded, 0, held, 0, source⟩

/-- This is the fault of a value that needs a byte when none is left. -/
def byteFault (span : Span) : WireFault :=
  match span.ending with
  | .complete => .ended
  | _ => span.source.byteFault

/-- This says whether so many bytes more than there are still lie within the declared length. -/
def isDeclared (span : Span) (excess : Nat) : Bool :=
  match span.ending with
  | .complete => false
  | .short missing => excess ≤ missing
  | .unbounded => true

/-- Bytes that are taken one by one leave the rest of their piece at hand. -/
def advance (span : Span) (count : Nat) : Span :=
  let position := span.position + count
  let held := if position ≤ span.held then span.held else span.source.pieceEnd (position - 1)
  { span with bytes := span.bytes.drop count, position, held }

/-- Bytes that are taken at once leave nothing at hand if they were not at hand themselves. -/
def advanceAtOnce (span : Span) (count : Nat) : Span :=
  let position := span.position + count
  { span with bytes := span.bytes.drop count, position, held := max span.held position }

/-- When nothing is at hand, the next piece is asked for. -/
def refill (span : Span) : Span :=
  if span.held ≤ span.position then { span with held := span.source.pieceEnd span.position }
  else span

/-- These are the first bytes at hand, as many as a short number can have. -/
def atHand (span : Span) (limit : Nat) : List UInt8 :=
  span.bytes.take (min limit (span.held - span.position))

end Span

end LightList.Pbf
