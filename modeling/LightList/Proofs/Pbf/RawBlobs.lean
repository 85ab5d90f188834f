/-
This file describes the blobs of a PBF file that hold their messages as they are, each behind a
header of two fields, and shows what is read of such a header or content and of a part of it.

Every number in them may be spelled with more bytes than it needs, as other writers may do.
-/

import LightList.Proofs.Pbf.File
import LightList.Proofs.Pbf.Requiring

namespace LightList.Pbf

/-- A number may be spelled with more bytes than it needs. -/
structure Spelling (value : Nat) where
  bytes : List UInt8
  isVarint : IsVarint value bytes

def Spelling.shortest (value : Nat) : Spelling value := ⟨varint value, isVarint_varint value⟩

/-- The message of a blob stands in its only field, as it is. -/
structure RawContent where
  message : List UInt8
  tag : Spelling (1 * 8 + 2)
  length : Spelling message.length

def RawContent.bytes (content : RawContent) : List UInt8 :=
  content.tag.bytes ++ (content.length.bytes ++ content.message)

/-- A blob belongs to the header of a file, or it holds some of its data. -/
def IsKnownKind (kind : String) : Prop := kind = "OSMHeader" ∨ kind = "OSMData"

/-- The known kinds have short names. -/
theorem IsKnownKind.length_lt {kind : String} (known : IsKnownKind kind) :
    (Text.bytes kind).length < 128 := by
  rcases known with known | known <;> rw [known] <;> decide +kernel

/-- The kind of a blob comes before its size. -/
structure RawHeader (size : Nat) where
  kind : String
  known : IsKnownKind kind
  kindTag : Spelling (1 * 8 + 2)
  kindLength : Spelling (Text.bytes kind).length
  sizeTag : Spelling (3 * 8 + 0)
  contentSize : Spelling size

def RawHeader.bytes {size : Nat} (header : RawHeader size) : List UInt8 :=
  (header.kindTag.bytes ++ (header.kindLength.bytes ++ Text.bytes header.kind)) ++
    (header.sizeTag.bytes ++ header.contentSize.bytes)

/-- A size has a sign, and the length of a header has four bytes. -/
structure RawBlob where
  content : RawContent
  header : RawHeader content.bytes.length
  contentFits : content.bytes.length < Nat.pow 2 31
  headerFits : header.bytes.length < Nat.pow 2 32

namespace RawBlob

def bytes (blob : RawBlob) : List UInt8 :=
  Content.lengthWord blob.header.bytes.length ++ (blob.header.bytes ++ blob.content.bytes)

/-- This is what the message of a blob gives. -/
def elements (blob : RawBlob) : Except Fault (List Element) :=
  blobElements ⟨blob.header.kind, .ofNat blob.content.bytes.length⟩
    (some (.raw blob.content.message))

/-- In a file the blobs follow each other. -/
def file (blobs : List RawBlob) : List UInt8 := blobs.flatMap bytes

theorem file_cons (blob : RawBlob) (blobs : List RawBlob) :
    file (blob :: blobs) = blob.bytes ++ file blobs := List.flatMap_cons

end RawBlob

namespace Wire

/-- What is parsed was read from the whole of the bytes. -/
theorem exists_of_parse {Value : Type} {message : Reader Value} {bytes : List UInt8}
    {source : Source} {value : Value} (read : parse message bytes source = .ok value) :
    ∃ final, message (.ofSource bytes source) = .ok (value, final) := by
  unfold parse at read
  split at read
  · next final succeeded =>
      cases read
      exact ⟨final, succeeded⟩
  · cases read

end Wire

namespace RawContent

variable (content : RawContent) {source : Source} {data : Option BlobData}

/-- The length and the message of the content stand in a row of fields. -/
theorem row_bytes (fits : content.bytes.length < Nat.pow 2 31) :
    Wire.Row Wire.blobField (· = none) none content.bytes (some (.raw content.message)) := by
  have short : content.message.length < Nat.pow 2 32 := by
    simp only [RawContent.bytes, List.length_append, Nat.pow_eq] at fits ⊢
    omega
  have payload : Wire.Needs (Wire.blobField none ⟨1, 2⟩)
      (content.length.bytes ++ content.message) (some (.raw content.message)) :=
    (Wire.needs_bytes content.length.isVarint short).map fun content => some (BlobData.raw content)
  have field : Wire.Needs (Wire.tag >>= Wire.blobField none) content.bytes
      (some (.raw content.message)) :=
    (Wire.needs_tag content.tag.isVarint Nat.one_pos (by decide) (by decide)).bind payload
  have row : Wire.Row Wire.blobField (· = none) none (content.bytes ++ [])
      (some (.raw content.message)) :=
    .next rfl (content.tag.isVarint.append_ne_nil _) field (.done _)
  rwa [List.append_nil] at row

/-- Content that is parsed is the raw message that it was written from. -/
theorem parse_whole (fits : content.bytes.length < Nat.pow 2 31) (flawless : source.flaw? = none)
    (read : Wire.parse Wire.blob content.bytes source = .ok data) :
    data = some (.raw content.message) := by
  obtain ⟨final, succeeded⟩ := Wire.exists_of_parse read
  have sound := Span.isSound_ofSource flawless (Nat.lt_trans fits (by decide))
  exact (content.row_bytes fits).fieldsWithin_whole sound rfl (Nat.le_refl _) succeeded

/-- A part of the field passes for a message only if it has no bytes, and then it holds nothing. -/
theorem parse_part (fits : content.bytes.length < Nat.pow 2 31) (flawless : source.flaw? = none)
    {kept lost : List UInt8} (split : content.bytes = kept ++ lost) (cut : lost ≠ [])
    (read : Wire.parse Wire.blob kept source = .ok data) : data = none := by
  obtain ⟨final, succeeded⟩ := Wire.exists_of_parse read
  have shorter : kept.length ≤ content.bytes.length := List.IsPrefix.length_le ⟨lost, split.symm⟩
  have short : content.bytes.length < Nat.pow 2 32 := Nat.lt_trans fits (by decide)
  have sound := Span.isSound_ofSource flawless (Nat.lt_of_le_of_lt shorter short)
  exact (content.row_bytes fits).fieldsWithin_part sound split cut (Nat.le_refl _) succeeded

end RawContent

namespace RawHeader

variable {size : Nat} (header : RawHeader size) {source : Source} {found : BlobHeader}

/-- The kind and the size stand in a row of fields. -/
theorem row_bytes (fits : size < Nat.pow 2 31) :
    Wire.Row Wire.blobHeaderField (·.contentSize = none) ⟨none, none⟩ header.bytes
      ⟨some header.kind, some (.ofNat size)⟩ := by
  have short : (Text.bytes header.kind).length < Nat.pow 2 32 :=
    Nat.lt_trans header.known.length_lt (by decide)
  let named : Wire.HeaderDraft := ⟨some header.kind, none⟩
  have kind : Wire.Needs (Wire.blobHeaderField ⟨none, none⟩ ⟨1, 2⟩)
      (header.kindLength.bytes ++ Text.bytes header.kind) named :=
    (Wire.needs_text header.kindLength.isVarint short).map
      fun kind => Wire.HeaderDraft.mk (some kind) none
  have kindField : Wire.Needs (Wire.tag >>= Wire.blobHeaderField ⟨none, none⟩) _ named :=
    (Wire.needs_tag header.kindTag.isVarint Nat.one_pos (by decide) (by decide)).bind kind
  have contentSize : Wire.Needs (Wire.blobHeaderField named ⟨3, 0⟩) header.contentSize.bytes
      ⟨some header.kind, some (.ofNat size)⟩ :=
    (Wire.needs_int32 header.contentSize.isVarint fits).map
      fun size => Wire.HeaderDraft.mk (some header.kind) (some size)
  have sizeField : Wire.Needs (Wire.tag >>= Wire.blobHeaderField named) _ _ :=
    (Wire.needs_tag header.sizeTag.isVarint (by decide) (by decide) (by decide)).bind contentSize
  have last : Wire.Row Wire.blobHeaderField (·.contentSize = none) named
      ((header.sizeTag.bytes ++ header.contentSize.bytes) ++ []) _ :=
    .next rfl (header.sizeTag.isVarint.append_ne_nil _) sizeField (.done _)
  rw [List.append_nil] at last
  exact .next rfl (header.kindTag.isVarint.append_ne_nil _) kindField last

/-- A header that is parsed has the kind and the size that were written. -/
theorem parse_whole (fits : size < Nat.pow 2 31) (short : header.bytes.length < Nat.pow 2 32)
    (flawless : source.flaw? = none)
    (read : Wire.parse Wire.blobHeader header.bytes source = .ok found) :
    found = ⟨header.kind, .ofNat size⟩ := by
  obtain ⟨final, succeeded⟩ := Wire.exists_of_parse read
  obtain ⟨draft, middle, drafted, finished⟩ := Wire.exists_of_bind succeeded
  have sound := Span.isSound_ofSource flawless short
  cases (header.row_bytes fits).fieldsWithin_whole sound rfl (Nat.le_refl _) drafted
  cases finished
  rfl

/-- The size is the last field, and it is missing in every part of a header. -/
theorem exists_fault (fits : size < Nat.pow 2 31) (short : header.bytes.length < Nat.pow 2 32)
    (flawless : source.flaw? = none) {kept lost : List UInt8}
    (split : header.bytes = kept ++ lost) (cut : lost ≠ []) :
    ∃ fault, Wire.parse Wire.blobHeader kept source = .error fault := by
  cases read : Wire.parse Wire.blobHeader kept source with
  | error fault => exact ⟨fault, rfl⟩
  | ok found =>
      obtain ⟨final, succeeded⟩ := Wire.exists_of_parse read
      obtain ⟨draft, middle, drafted, finished⟩ := Wire.exists_of_bind succeeded
      have shorter : kept.length ≤ header.bytes.length :=
        List.IsPrefix.length_le ⟨lost, split.symm⟩
      have sound := Span.isSound_ofSource flawless (Nat.lt_of_le_of_lt shorter short)
      have missing :=
        (header.row_bytes fits).fieldsWithin_part sound split cut (Nat.le_refl _) drafted
      obtain ⟨kind, later, -, required⟩ := Wire.exists_of_bind finished
      rw [missing] at required
      cases required

end RawHeader

namespace Content

/-- What is written spells each number as shortly as it can. -/
def Blob.rawContent (blob : Blob) : RawContent :=
  ⟨writeFields blob.message, .shortest _, .shortest _⟩

/-- In raw form the content of a blob has the same bytes. -/
theorem Blob.bytes_rawContent (blob : Blob) : blob.rawContent.bytes = blob.content :=
  blob.content_eq.symm

def Blob.rawHeader (blob : Blob) (known : IsKnownKind blob.kind) :
    RawHeader blob.rawContent.bytes.length :=
  ⟨blob.kind, known, .shortest _, .shortest _, .shortest _, .shortest _⟩

/-- In raw form the header of a blob has the same bytes. -/
theorem Blob.bytes_rawHeader (blob : Blob) (known : IsKnownKind blob.kind) :
    (blob.rawHeader known).bytes = blob.header := by
  rw [header_eq, ← bytes_rawContent]
  rfl

def Blob.raw (blob : Blob) (known : IsKnownKind blob.kind) (allowed : blob.IsAllowed) :
    RawBlob where
  content := blob.rawContent
  header := blob.rawHeader known
  contentFits := by
    rw [bytes_rawContent]
    exact length_content_lt blob allowed
  headerFits := by
    rw [bytes_rawHeader]
    exact Nat.lt_trans (length_header_lt blob allowed known.length_lt) (by decide)

/-- In raw form a blob has the same bytes. -/
theorem Blob.bytes_raw (blob : Blob) (known : IsKnownKind blob.kind) (allowed : blob.IsAllowed) :
    (blob.raw known allowed).bytes = blob.bytes := by
  rw [RawBlob.bytes, Blob.bytes, ← bytes_rawContent, ← bytes_rawHeader blob known]
  rfl

end Content

end LightList.Pbf
