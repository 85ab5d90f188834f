/-
This file holds a destination that takes a limited number of bytes.
-/

namespace LightList

structure Sink where
  capacity : Nat
  written : String
  within : written.utf8ByteSize ≤ capacity

namespace Sink

/-- A piece did not fit into the room that was left. -/
inductive Full where
  | wholeBuffer
deriving DecidableEq

def Full.message : Full → String
  | .wholeBuffer => "failed to write whole buffer"

def ofCapacity (capacity : Nat) : Sink := ⟨capacity, "", Nat.zero_le _⟩

/-- A piece is taken as a whole or the write fails. -/
def write (sink : Sink) (piece : String) : Except Full Sink :=
  if within : (sink.written ++ piece).utf8ByteSize ≤ sink.capacity then
    .ok ⟨sink.capacity, sink.written ++ piece, within⟩
  else .error .wholeBuffer

def writeAll (sink : Sink) : List String → Except Full Sink
  | [] => .ok sink
  | piece :: rest =>
      match sink.write piece with
      | .error full => .error full
      | .ok next => next.writeAll rest

end Sink

end LightList
