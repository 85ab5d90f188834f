/-
This file shows what is read of a PBF file that has been cut off. Fewer bytes than a length has are
the end of the file, so the blobs before them are read; a blob that is cut later than that is
refused.
-/

import LightList.Proofs.Pbf.RawBlobs
import Mathlib.Data.List.Forall2

namespace LightList.Pbf

namespace Framed

variable {size start : Nat} {rest : List UInt8} {framed : Framed} {part : List Element}

/-- A blob is framed exactly if its header is within its limit and can be parsed. -/
theorem ofFile_eq_ok_iff :
    ofFile size start rest = .ok framed ↔ size < headerLimit ∧
      ∃ header, Wire.parse Wire.blobHeader (rest.take size)
          (stretch start (rest.take size).length) = .ok header ∧
        ⟨header, (contentOf header.contentSize (rest.drop size)).1,
          start + (rest.take size).length,
          (contentOf header.contentSize (rest.drop size)).2⟩ = framed := by
  unfold ofFile
  rw [List.splitAt_eq]
  dsimp only
  by_cases tooBig : headerLimit ≤ size
  · rw [if_pos tooBig]
    exact ⟨nofun, fun ⟨small, _⟩ => absurd tooBig (Nat.not_le.2 small)⟩
  · rw [if_neg tooBig]
    cases Wire.parse Wire.blobHeader (rest.take size) (stretch start (rest.take size).length) with
    | error fault => exact ⟨nofun, nofun⟩
    | ok header => simp [Nat.not_le.1 tooBig]

/-- A framed blob gives its elements exactly if its content can be parsed and holds them. -/
theorem elements_eq_ok_iff :
    framed.elements = .ok part ↔
      ∃ data, Wire.parse Wire.blob framed.content (stretch framed.start framed.content.length) =
          .ok data ∧ blobElements framed.header data = .ok part := by
  unfold elements
  cases Wire.parse Wire.blob framed.content (stretch framed.start framed.content.length) with
  | error fault => exact ⟨nofun, nofun⟩
  | ok data => simp

end Framed

section Loop

variable {size start : Nat} {rest : List UInt8}

/-- Behind a length a blob must be read. -/
theorem exists_framed (fits : size < Nat.pow 2 32) {byte : UInt8} {bound : List UInt8}
    {earlier : Array Element} {elements : List Element}
    (succeeded : elementsWithin (byte :: bound) start (Content.lengthWord size ++ rest) earlier =
      .ok elements) :
    ∃ framed part, Framed.ofFile size (start + lengthSize) rest = .ok framed ∧
      framed.elements = .ok part := by
  simp only [Content.lengthWord, List.cons_append, List.nil_append, elementsWithin,
    Content.headerSize_lengthWord fits] at succeeded
  split at succeeded
  · cases succeeded
  · next framed isFramed =>
      split at succeeded
      · cases succeeded
      · next part gives => exact ⟨framed, part, isFramed, gives⟩

/-- Fewer bytes than a length has are the end of a file. -/
theorem elementsWithin_short (short : rest.length < lengthSize) (bound : List UInt8)
    (earlier : Array Element) : elementsWithin bound start rest earlier = .ok earlier.toList := by
  match rest, short with
  | [], _ | [_], _ | [_, _], _ | [_, _, _], _ => cases bound <;> rfl

end Loop

namespace RawBlob

variable (blob : RawBlob) {start : Nat} {rest : List UInt8} {part : List Element}

/-- This is what is read when the header of the blob starts at the given place. -/
def framed (start : Nat) (rest : List UInt8) : Framed where
  header := ⟨blob.header.kind, .ofNat blob.content.bytes.length⟩
  content := blob.content.bytes
  start := start + blob.header.bytes.length
  rest := rest

/-- A blob begins with the length of its header. -/
theorem lengthSize_le_length : lengthSize ≤ blob.bytes.length := by
  rw [bytes, List.length_append]
  exact Nat.le_add_right _ _

/-- The blob is read from this place on, whatever follows it, and these are its elements. -/
structure IsReadAt (start : Nat) (part : List Element) : Prop where
  isFramed (rest : List UInt8) : Framed.ofFile blob.header.bytes.length start
    (blob.header.bytes ++ (blob.content.bytes ++ rest)) = .ok (blob.framed start rest)
  gives (rest : List UInt8) : (blob.framed start rest).elements = .ok part

/-- A blob that is read with some rest is read with any other. -/
theorem isReadAt_of_framed {framed : Framed}
    (isFramed : Framed.ofFile blob.header.bytes.length start
      (blob.header.bytes ++ (blob.content.bytes ++ rest)) = .ok framed)
    (gives : framed.elements = .ok part) : blob.IsReadAt start part := by
  obtain ⟨small, header, read, rfl⟩ := Framed.ofFile_eq_ok_iff.1 isFramed
  rw [List.take_left] at read
  cases blob.header.parse_whole blob.contentFits blob.headerFits rfl read
  rw [List.take_left, List.drop_left, Content.contentOf_append blob.contentFits] at gives
  refine ⟨fun rest => ?_, fun rest => gives⟩
  rw [Framed.ofFile_eq_ok_iff, List.take_left, List.drop_left]
  refine ⟨small, _, read, ?_⟩
  rw [Content.contentOf_append blob.contentFits]
  rfl

namespace IsReadAt

variable {blob}

theorem elements_eq (isRead : blob.IsReadAt start part) : blob.elements = .ok part := by
  obtain ⟨data, read, gives⟩ := Framed.elements_eq_ok_iff.1 (isRead.gives [])
  cases blob.content.parse_whole blob.contentFits rfl read
  exact gives

/-- The loop goes on behind the blob. -/
theorem elementsWithin_eq (isRead : blob.IsReadAt (start + lengthSize) part) (byte : UInt8)
    (bound : List UInt8) (earlier : Array Element) :
    elementsWithin (byte :: bound) start (blob.bytes ++ rest) earlier =
      elementsWithin bound (start + blob.bytes.length) rest (earlier ++ part) := by
  have finish : (blob.framed (start + lengthSize) rest).finish = start + blob.bytes.length := by
    rw [bytes, List.length_append, List.length_append, ← Nat.add_assoc, ← Nat.add_assoc]
    rfl
  rw [bytes, List.append_assoc, List.append_assoc,
    Content.elementsWithin_of_framed blob.headerFits (isRead.isFramed rest) (isRead.gives rest), finish]
  rfl

end IsReadAt

/-- A blob without its message gives no elements. -/
theorem blobElements_none (size : Int32) :
    blobElements ⟨blob.header.kind, size⟩ none = .error .emptyBlob := by
  rcases blob.header.known with known | known <;> rw [known] <;> rfl

/-- A header that is cut off is no message, so nothing is taken for its blob. -/
theorem not_framed {kept lost : List UInt8} (split : blob.header.bytes = kept ++ lost)
    (cut : lost ≠ []) (framed : Framed) :
    Framed.ofFile blob.header.bytes.length start kept ≠ .ok framed := by
  intro isFramed
  obtain ⟨-, header, read, -⟩ := Framed.ofFile_eq_ok_iff.1 isFramed
  have short : kept.length ≤ blob.header.bytes.length := List.IsPrefix.length_le ⟨lost, split.symm⟩
  rw [List.take_of_length_le short] at read
  obtain ⟨fault, failed⟩ := blob.header.exists_fault blob.contentFits blob.headerFits
    (rfl : (stretch start kept.length).flaw? = none) split cut
  rw [failed] at read
  cases read

/-- The content that is left is shorter than the header says, and all of it is taken. -/
theorem not_gives {kept lost : List UInt8} (split : blob.content.bytes = kept ++ lost)
    (cut : lost ≠ []) {framed : Framed}
    (isFramed : Framed.ofFile blob.header.bytes.length start (blob.header.bytes ++ kept) =
      .ok framed) : framed.elements ≠ .ok part := by
  intro gives
  obtain ⟨-, header, headerRead, rfl⟩ := Framed.ofFile_eq_ok_iff.1 isFramed
  rw [List.take_left] at headerRead
  cases blob.header.parse_whole blob.contentFits blob.headerFits rfl headerRead
  obtain ⟨data, read, isEmpty⟩ := Framed.elements_eq_ok_iff.1 gives
  have short : kept.length ≤ blob.content.bytes.length := List.IsPrefix.length_le ⟨lost, split.symm⟩
  dsimp only at read isEmpty
  rw [List.drop_left, Content.contentOf_ofNat blob.contentFits,
    List.take_of_length_le short] at read
  rw [blob.content.parse_part blob.contentFits rfl split cut read, blobElements_none] at isEmpty
  cases isEmpty

/-- A part of a blob that has the whole length is refused. -/
theorem exists_fault {kept lost : List UInt8} (split : blob.bytes = kept ++ lost) (cut : lost ≠ [])
    (long : lengthSize ≤ kept.length) (byte : UInt8) (bound : List UInt8)
    (earlier : Array Element) :
    ∃ fault, elementsWithin (byte :: bound) start kept earlier = .error fault := by
  cases read : elementsWithin (byte :: bound) start kept earlier with
  | error fault => exact ⟨fault, rfl⟩
  | ok elements =>
      -- The length is whole, so the cut falls into the content or into the header.
      rcases exists_kept_or_lost split with ⟨behind, rfl, parts⟩ | ⟨missing, some, word⟩
      · obtain ⟨framed, part, isFramed, gives⟩ := exists_framed blob.headerFits read
        rcases exists_kept_or_lost parts with ⟨front, rfl, content⟩ | ⟨missing, some, header⟩
        · exact absurd gives (blob.not_gives content cut isFramed)
        · exact absurd isFramed (blob.not_framed header some framed)
      · have shorter := congrArg List.length word
        have positive := List.length_pos_iff.2 some
        rw [List.length_append] at shorter
        change lengthSize = _ at shorter
        omega

end RawBlob

/-- The blobs from this place on are read one after the other, and each gives its elements. -/
inductive AreReadAt : Nat → List RawBlob → List (List Element) → Prop where
  | done (start : Nat) : AreReadAt start [] []
  | next {start : Nat} {blob : RawBlob} {blobs : List RawBlob} {part : List Element}
      {parts : List (List Element)} : blob.IsReadAt (start + lengthSize) part →
      AreReadAt (start + blob.bytes.length) blobs parts →
      AreReadAt start (blob :: blobs) (part :: parts)

namespace AreReadAt

variable {start : Nat} {blobs : List RawBlob} {parts : List (List Element)}

theorem forall₂ (areRead : AreReadAt start blobs parts) :
    List.Forall₂ (fun blob part => blob.elements = .ok part) blobs parts := by
  induction areRead with
  | done => exact .nil
  | next isRead _ inductionHypothesis => exact .cons isRead.elements_eq inductionHypothesis

/-- The first blobs are read without the others too. -/
theorem take (areRead : AreReadAt start blobs parts) (count : Nat) :
    AreReadAt start (blobs.take count) (parts.take count) := by
  induction areRead generalizing count with
  | done start =>
      rw [List.take_nil, List.take_nil]
      exact .done start
  | next isRead _ inductionHypothesis =>
      cases count with
      | zero => exact .done _
      | succ count => exact .next isRead (inductionHypothesis count)

/-- Each blob adds its elements to the earlier ones. -/
theorem elementsWithin_eq (areRead : AreReadAt start blobs parts) {bound : List UInt8}
    (enough : blobs.length ≤ bound.length) (rest : List UInt8) (earlier : Array Element) :
    elementsWithin bound start (RawBlob.file blobs ++ rest) earlier =
      elementsWithin (bound.drop blobs.length) (start + (RawBlob.file blobs).length) rest
        (earlier ++ parts.flatten) := by
  induction areRead generalizing bound earlier with
  | done start => simp [RawBlob.file]
  | next isRead _ inductionHypothesis =>
      cases bound with
      | nil => cases enough
      | cons byte bound =>
          rw [RawBlob.file_cons, List.append_assoc, isRead.elementsWithin_eq,
            inductionHypothesis (Nat.le_of_succ_le_succ enough)]
          have gathered (part : List Element) (parts : List (List Element)) :
              earlier ++ part ++ parts.flatten = earlier ++ (part :: parts).flatten := by
            apply Array.toList_inj.1
            simp
          simp [gathered, Nat.add_assoc]

end AreReadAt

/-- What is read of a file is read blob by blob. -/
theorem exists_areReadAt {blobs : List RawBlob} {bound : List UInt8}
    (enough : blobs.length ≤ bound.length) {start : Nat} {earlier : Array Element}
    {elements : List Element}
    (succeeded : elementsWithin bound start (RawBlob.file blobs) earlier = .ok elements) :
    ∃ parts, AreReadAt start blobs parts := by
  induction blobs generalizing bound start earlier with
  | nil => exact ⟨[], .done start⟩
  | cons blob blobs inductionHypothesis =>
      cases bound with
      | nil => cases enough
      | cons byte bound =>
          have first := succeeded
          rw [RawBlob.file_cons, RawBlob.bytes, List.append_assoc, List.append_assoc] at first
          obtain ⟨framed, part, isFramed, gives⟩ := exists_framed blob.headerFits first
          have isRead := blob.isReadAt_of_framed isFramed gives
          rw [RawBlob.file_cons, isRead.elementsWithin_eq] at succeeded
          obtain ⟨parts, areRead⟩ := inductionHypothesis (Nat.le_of_succ_le_succ enough) succeeded
          exact ⟨part :: parts, .next isRead areRead⟩

namespace RawBlob

/-- These blobs are all there, and behind them fewer bytes than a length has. -/
def IsCutBehind (blobs : List RawBlob) (cut : List UInt8) : Prop :=
  ∃ kept, cut = file blobs ++ kept ∧ kept.length < lengthSize

/-- Such a cut has all bytes of these blobs and fewer than a length more. -/
theorem IsCutBehind.length_lt {blobs : List RawBlob} {cut : List UInt8}
    (ends : IsCutBehind blobs cut) :
    (file blobs).length ≤ cut.length ∧ cut.length < (file blobs).length + lengthSize := by
  obtain ⟨kept, rfl, short⟩ := ends
  rw [List.length_append]
  omega

/-- There are at least as many bytes as blobs. -/
theorem length_le_file (blobs : List RawBlob) : blobs.length ≤ (file blobs).length := by
  refine Wire.length_le_flatMap (fun blob => ?_) blobs
  exact List.ne_nil_of_length_pos (Nat.lt_of_lt_of_le (by decide) blob.lengthSize_le_length)

/-- A cut falls into one of the blobs. -/
theorem exists_blob_of_cut {blobs : List RawBlob} {cut missing : List UInt8}
    (split : file blobs = cut ++ missing) (isCut : missing ≠ []) :
    ∃ (count : Nat) (blob : RawBlob) (kept lost : List UInt8),
      cut = file (blobs.take count) ++ kept ∧ blob.bytes = kept ++ lost ∧ lost ≠ [] := by
  induction blobs generalizing cut with
  | nil => exact absurd (List.append_eq_nil_iff.1 split.symm).2 isCut
  | cons blob blobs inductionHypothesis =>
      rw [file_cons] at split
      rcases exists_kept_or_lost split with ⟨more, rfl, behind⟩ | ⟨lost, some, part⟩
      · obtain ⟨count, other, kept, lost, rfl, part, some⟩ := inductionHypothesis behind
        refine ⟨count + 1, other, kept, lost, ?_, part, some⟩
        rw [List.take_succ_cons, file_cons, List.append_assoc]
      · exact ⟨0, blob, cut, lost, rfl, part, some⟩

end RawBlob

namespace AreReadAt

variable {front : List RawBlob} {parts : List (List Element)} {kept : List UInt8}

/-- The bytes of a file bound its loop, so the blobs in front are read in any case. -/
theorem read_eq (areRead : AreReadAt 0 front parts) (rest : List UInt8) :
    read (RawBlob.file front ++ rest) =
      elementsWithin ((RawBlob.file front ++ rest).drop front.length)
        (0 + (RawBlob.file front).length) rest ((#[] : Array Element) ++ parts.flatten) := by
  have enough : front.length ≤ (RawBlob.file front ++ rest).length := by
    rw [List.length_append]
    exact Nat.le_add_right_of_le (RawBlob.length_le_file front)
  exact areRead.elementsWithin_eq enough rest #[]

/-- A file that is cut behind a blob gives the elements of the blobs before the cut. -/
theorem read_of_isCutBehind (areRead : AreReadAt 0 front parts) {cut : List UInt8}
    (ends : RawBlob.IsCutBehind front cut) : read cut = .ok parts.flatten := by
  obtain ⟨kept, rfl, short⟩ := ends
  rw [areRead.read_eq, elementsWithin_short short]
  simp

/-- A file that is cut within a blob is refused. -/
theorem exists_fault (areRead : AreReadAt 0 front parts) {blob : RawBlob} {lost : List UInt8}
    (split : blob.bytes = kept ++ lost) (isCut : lost ≠ []) (long : lengthSize ≤ kept.length) :
    ∃ fault, read (RawBlob.file front ++ kept) = .error fault := by
  rw [areRead.read_eq]
  cases left : (RawBlob.file front ++ kept).drop front.length with
  | nil =>
      have fewer := RawBlob.length_le_file front
      rw [List.drop_eq_nil_iff, List.length_append] at left
      simp only [lengthSize] at long
      omega
  | cons byte bound => exact blob.exists_fault split isCut long byte bound _

end AreReadAt

end LightList.Pbf

namespace LightList.Source

open Pbf

def lightStart : RawBlob := lightHeader.blob.raw (.inl rfl) (by decide +kernel)

def lightBody : RawBlob := lightBlock.blob.raw (.inr rfl) (by decide +kernel)

/-- Reading the source succeeds exactly if the bytes are read as such a file. -/
theorem pbf_eq_ok_iff {bytes : List UInt8} {elements : List Element} :
    pbf (.ok bytes) = .ok elements ↔ Pbf.read bytes = .ok elements := by
  cases result : Pbf.read bytes <;> simp [pbf, Except.mapError, result]

/--
A file that has been cut off is read up to its last whole blob if the cut leaves no length behind
it, and is refused otherwise.
-/
theorem pbf_reads_cut {blobs : List RawBlob} {elements : List Element}
    (succeeds : pbf (.ok (RawBlob.file blobs)) = .ok elements) :
    ∃ parts : List (List Element),
      List.Forall₂ (fun blob part => blob.elements = .ok part) blobs parts ∧
      elements = parts.flatten ∧
      ∀ cut missing, RawBlob.file blobs = cut ++ missing → missing ≠ [] →
        (∀ count, RawBlob.IsCutBehind (blobs.take count) cut →
          pbf (.ok cut) = .ok (parts.take count).flatten ∧
            (parts.take count).flatten <+: elements) ∧
        ((∀ count, ¬ RawBlob.IsCutBehind (blobs.take count) cut) →
          ∃ fault, pbf (.ok cut) = .error fault) := by
  rw [pbf_eq_ok_iff] at succeeds
  obtain ⟨parts, areRead⟩ := exists_areReadAt (RawBlob.length_le_file blobs) succeeds
  have whole : RawBlob.IsCutBehind blobs (RawBlob.file blobs) :=
    ⟨[], (List.append_nil _).symm, by decide⟩
  rw [areRead.read_of_isCutBehind whole] at succeeds
  cases succeeds
  refine ⟨parts, areRead.forall₂, rfl, fun cut missing split isCut => ⟨?_, ?_⟩⟩
  · intro count ends
    refine ⟨pbf_eq_ok_iff.2 ((areRead.take count).read_of_isCutBehind ends), ?_⟩
    exact ⟨(parts.drop count).flatten, by rw [← List.flatten_append, List.take_append_drop]⟩
  · intro inside
    obtain ⟨count, blob, kept, lost, rfl, part, some⟩ := RawBlob.exists_blob_of_cut split isCut
    have long : lengthSize ≤ kept.length :=
      Nat.not_lt.1 fun short => inside count ⟨kept, rfl, short⟩
    obtain ⟨fault, failed⟩ := (areRead.take count).exists_fault part some long
    exact ⟨.pbf fault, by rw [pbf, failed]; rfl⟩

/-- A length that is cut off ends the file behind its header, and a whole length begins a block. -/
theorem pbf_reads_cut_lights :
    pbf (.ok (RawBlob.file [lightStart, lightBody])) = .ok lightBlock.elements ∧
      pbf (.ok (lightStart.bytes ++ [0, 0, 0])) = .ok [] ∧
      ∃ fault, pbf (.ok (lightStart.bytes ++ [0, 0, 0, 12])) = .error fault := by
  have computed : (∀ block ∈ [lightBlock], block.Fits) ∧
      (∀ blob ∈ Content.blobs (some lightHeader) [lightBlock], blob.IsAllowed) ∧
      lightBody.bytes.take 4 = [0, 0, 0, 12] ∧ lightBody.bytes.drop 4 ≠ [] := by
    decide +kernel
  obtain ⟨fits, allowed, word, behind⟩ := computed
  have start : lightStart.bytes = lightHeader.blob.bytes := Content.Blob.bytes_raw _ _ _
  have body : lightBody.bytes = lightBlock.blob.bytes := Content.Blob.bytes_raw _ _ _
  have succeeds : pbf (.ok (RawBlob.file [lightStart, lightBody])) = .ok lightBlock.elements := by
    have written : RawBlob.file [lightStart, lightBody] =
        Content.file (some lightHeader) [lightBlock] := by
      simp [RawBlob.file, start, body, Content.file, Content.blobs]
    rw [pbf_eq_ok_iff, written, Content.read_file _ _ fits allowed]
    simp
  have whole : RawBlob.file [lightStart, lightBody] =
      lightStart.bytes ++ ([0, 0, 0, 12] ++ lightBody.bytes.drop 4) := by
    rw [← word, List.take_append_drop]
    simp [RawBlob.file]
  obtain ⟨parts, each, -, cuts⟩ := pbf_reads_cut succeeds
  refine ⟨succeeds, ?_, ?_⟩
  · have split : RawBlob.file [lightStart, lightBody] =
        (lightStart.bytes ++ [0, 0, 0]) ++ 12 :: lightBody.bytes.drop 4 := by simp [whole]
    have ends : RawBlob.IsCutBehind [lightStart] (lightStart.bytes ++ [0, 0, 0]) :=
      ⟨[0, 0, 0], by simp [RawBlob.file], by decide⟩
    obtain ⟨read, -⟩ := (cuts _ _ split (List.cons_ne_nil _ _)).1 1 ends
    cases each with
    | cons first rest =>
        have given := lightHeader.blob_gives (allowed _ (by simp [Content.blobs]))
        cases first.symm.trans (given.read _)
        simpa using read
  · have split : RawBlob.file [lightStart, lightBody] =
        (lightStart.bytes ++ [0, 0, 0, 12]) ++ lightBody.bytes.drop 4 := by simp [whole]
    refine (cuts _ _ split behind).2 fun count ends => ?_
    have lengths := ends.length_lt
    have more := List.length_pos_iff.2 behind
    have total := congrArg List.length whole
    rcases count with _ | _ | count
    · simp only [List.take_zero, RawBlob.file, List.flatMap_nil, List.length_append,
        List.length_cons, List.length_nil, lengthSize] at lengths
      omega
    · simp [RawBlob.file, lengthSize] at lengths
    · rw [List.take_succ_cons, List.take_succ_cons, List.take_nil] at lengths
      simp only [List.length_append] at total lengths
      omega

end LightList.Source
