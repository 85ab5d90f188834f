/-
This file shows that a document which does not fit into its destination is always reported.

The text leaves in pieces, and the piece that runs past the limit may be any of them. What becomes of
the pieces depends on their joined text alone, so it does not matter how the text is cut.
-/

import LightList.Feature
import LightList.Record

namespace LightList

namespace Sink

/-- A piece that fits is taken as a whole. -/
theorem write_of_fits {sink : Sink} {piece : String}
    (fits : (sink.written ++ piece).utf8ByteSize ≤ sink.capacity) :
    sink.write piece = .ok ⟨sink.capacity, sink.written ++ piece, fits⟩ :=
  dif_pos fits

/-- A piece that does not fit is refused. -/
theorem write_of_exceeds {sink : Sink} {piece : String}
    (exceeds : sink.capacity < (sink.written ++ piece).utf8ByteSize) :
    sink.write piece = .error .wholeBuffer :=
  dif_neg (Nat.not_le.2 exceeds)

/-- Pieces that follow each other are taken exactly if their joined text is. -/
theorem writeAll_eq_write_join (sink : Sink) (pieces : List String) :
    sink.writeAll pieces = sink.write (String.join pieces) := by
  induction pieces generalizing sink with
  | nil => simp [writeAll, write, sink.within]
  | cons piece rest inductionHypothesis =>
      rw [String.join_cons, writeAll]
      by_cases fits : (sink.written ++ piece).utf8ByteSize ≤ sink.capacity
      · rw [write_of_fits fits]
        simp only [inductionHypothesis, write, String.append_assoc]
      · -- What does not fit does not fit with more behind it.
        have exceeds := Nat.not_le.1 fits
        have further : sink.capacity <
            (sink.written ++ (piece ++ String.join rest)).utf8ByteSize := by
          simp only [String.utf8ByteSize_append] at exceeds ⊢
          omega
        rw [write_of_exceeds exceeds, write_of_exceeds further]

/--
Writing the text to a destination of any capacity succeeds exactly if the text fits, and then it has
been written in full. Otherwise the failure of the destination is told.
-/
structure Reports (write : Sink → Except Full Sink) (text : String) : Prop where
  succeeds_iff (capacity : Nat) :
    (∃ final, write (ofCapacity capacity) = .ok final) ↔ text.utf8ByteSize ≤ capacity
  written (capacity : Nat) (final : Sink) :
    write (ofCapacity capacity) = .ok final → final.capacity = capacity ∧ final.written = text
  fails (capacity : Nat) :
    capacity < text.utf8ByteSize → write (ofCapacity capacity) = .error .wholeBuffer

/-- Pieces that are written one after another arrive together or are reported. -/
theorem reports_writeAll (pieces : List String) :
    Reports (fun sink => sink.writeAll pieces) (String.join pieces) := by
  have start (capacity : Nat) : (ofCapacity capacity).written ++ String.join pieces =
      String.join pieces := String.empty_append
  have full (capacity : Nat) (exceeds : capacity < (String.join pieces).utf8ByteSize) :
      (ofCapacity capacity).writeAll pieces = .error .wholeBuffer := by
    rw [writeAll_eq_write_join]
    apply write_of_exceeds
    rwa [start]
  have taken (capacity : Nat) (fits : (String.join pieces).utf8ByteSize ≤ capacity) :
      ∃ final, (ofCapacity capacity).writeAll pieces = .ok final ∧
        final.capacity = capacity ∧ final.written = String.join pieces := by
    rw [← start capacity] at fits
    exact ⟨_, (writeAll_eq_write_join _ _).trans (write_of_fits fits), rfl, start capacity⟩
  constructor
  · intro capacity
    rcases Nat.lt_or_ge capacity (String.join pieces).utf8ByteSize with exceeds | fits
    · simp [full capacity exceeds, exceeds]
    · obtain ⟨final, succeeded, _⟩ := taken capacity fits
      simp [succeeded, fits]
  · intro capacity final succeeded
    rcases Nat.lt_or_ge capacity (String.join pieces).utf8ByteSize with exceeds | fits
    · rw [full capacity exceeds] at succeeded
      cases succeeded
    · obtain ⟨other, same, complete⟩ := taken capacity fits
      rw [succeeded] at same
      cases same
      exact complete
  · exact full

/--
A list of records or of features is written in full or its failure is told, wherever the limit
falls; and that does not depend on the pieces in which the text leaves.
-/
theorem documents_reported :
    (∀ records, Reports (Record.write records) (Record.document records)) ∧
      (∀ features, Reports (Feature.write features) (Feature.document features)) ∧
      ∀ pieces : List String, Reports (fun sink => sink.writeAll pieces) (String.join pieces) :=
  ⟨fun records => reports_writeAll (Record.documentPieces records),
    fun features => reports_writeAll ((Feature.collection features).prettyPieces 0),
    reports_writeAll⟩

end Sink

end LightList
