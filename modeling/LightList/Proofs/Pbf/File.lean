/-
This file shows that reading a PBF file gives back the elements that were written into it.
-/

import LightList.Proofs.Pbf.Elements
import LightList.Proofs.TagLookup
import LightList.Source

namespace LightList.Pbf

/-- A message that is all of its source is read from the first byte to the last. -/
theorem Wire.parse_of_takes {Value : Type} {message : Reader Value} {bytes : List UInt8}
    {value : Value} {source : Source} (takes : Takes message bytes [] value)
    (flawless : source.flaw? = none) (short : bytes.length < Nat.pow 2 32) :
    parse message bytes source = .ok value := by
  obtain ⟨final, read, -⟩ := takes (.ofSource bytes source)
    (Span.isSound_ofSource flawless short) (List.append_nil bytes).symm
  rw [parse, read]

namespace Content

section Lengths

/-- A tag and the length of a content have ten bytes at most. -/
theorem length_ofContent_le {number : Nat} {content : List UInt8} (known : number < Nat.pow 2 29)
    (fits : content.length < Nat.pow 2 64) :
    (WireField.ofContent number content).bytes.length ≤ content.length + 20 := by
  simp only [Nat.pow_eq] at known
  have tag : (varint (number * 8 + 2)).length ≤ 10 :=
    length_varint_le_ten (by simp only [Nat.pow_eq]; omega)
  have size : (varint content.length).length ≤ 10 := length_varint_le_ten fits
  simp only [WireField.ofContent, WireField.bytes, Wire.measured, List.length_append]
  omega

/-- A field that holds a number is short. -/
theorem length_ofNumber_le {number value : Nat} (known : number < Nat.pow 2 29)
    (fits : value < Nat.pow 2 64) : (WireField.ofNumber number value).bytes.length ≤ 20 := by
  simp only [Nat.pow_eq] at known
  have tag : (varint (number * 8 + 0)).length ≤ 10 :=
    length_varint_le_ten (by simp only [Nat.pow_eq]; omega)
  have payload : (varint value).length ≤ 10 := length_varint_le_ten fits
  simp only [WireField.ofNumber, WireField.bytes, List.length_append]
  omega

/-- The content of a blob is a single field. -/
theorem Blob.content_eq (blob : Blob) :
    blob.content = (WireField.ofContent 1 (writeFields blob.message)).bytes := List.append_nil _

/-- The header of a blob names its kind and the size of its content. -/
theorem Blob.header_eq (blob : Blob) :
    blob.header = (WireField.ofText 1 blob.kind).bytes ++
      (WireField.ofNumber 3 blob.content.length).bytes :=
  congrArg (_ ++ ·) (List.append_nil _)

/-- The content of a blob that is allowed has a length of 31 bits. -/
theorem length_content_lt (blob : Blob) (allowed : blob.IsAllowed) :
    blob.content.length < Nat.pow 2 31 := by
  have limit : (writeFields blob.message).length < 32 * 1024 * 1024 := allowed
  have size := length_ofContent_le (by decide : 1 < Nat.pow 2 29) (Nat.lt_trans limit (by decide))
  rw [blob.content_eq]
  simp only [Nat.pow_eq]
  omega

/-- The header of a blob is within its limit. -/
theorem length_header_lt (blob : Blob) (allowed : blob.IsAllowed)
    (named : (Text.bytes blob.kind).length < 128) : blob.header.length < headerLimit := by
  have kind : (WireField.ofText 1 blob.kind).bytes.length ≤ _ :=
    length_ofContent_le (by decide) (Nat.lt_trans named (by decide))
  have size : (WireField.ofNumber 3 blob.content.length).bytes.length ≤ _ :=
    length_ofNumber_le (by decide) (Nat.lt_trans (length_content_lt blob allowed) (by decide))
  rw [blob.header_eq, List.length_append, headerLimit]
  omega

/-- A field is not longer than the message that it is in. -/
theorem length_le_writeFields {field : WireField} {fields : List WireField}
    (member : field ∈ fields) : field.bytes.length ≤ (writeFields fields).length := by
  obtain ⟨front, back, rfl⟩ := List.append_of_mem member
  simp only [writeFields, List.flatMap_append, List.flatMap_cons, List.length_append]
  omega

/-- Each text of a table takes a byte at least. -/
theorem length_texts_le (block : Block) :
    block.texts.length ≤ (writeFields block.fields).length := by
  let table := block.texts.map fun text => WireField.ofText 1 text
  have first : WireField.ofFields 1 table ∈ block.fields := by
    simp [Block.fields, table]
  calc block.texts.length
      = table.length := (List.length_map _).symm
    _ ≤ (writeFields table).length := Wire.length_le_flatMap WireField.bytes_ne_nil table
    _ ≤ (Wire.measured (writeFields table)).length := Wire.length_le_measured _
    _ ≤ (WireField.ofFields 1 table).bytes.length := by
      rw [WireField.bytes, List.length_append]
      exact Nat.le_add_left _ _
    _ ≤ (writeFields block.fields).length := length_le_writeFields first

end Lengths

/-- The four bytes of a length are read back. -/
theorem headerSize_lengthWord {length : Nat} (fits : length < Nat.pow 2 32) :
    headerSize (length / Nat.pow 256 3).toUInt8 (length / Nat.pow 256 2).toUInt8
      (length / 256).toUInt8 length.toUInt8 = length := by
  simp only [headerSize, Nat.toUInt8_eq, UInt8.toNat_ofNat', Nat.pow_eq] at *
  omega

/-- Behind a length one blob is read, and then the loop goes on. -/
theorem elementsWithin_of_framed {size start : Nat} {rest : List UInt8} {framed : Framed}
    {part : List Element} (fits : size < Nat.pow 2 32)
    (isFramed : Framed.ofFile size (start + lengthSize) rest = .ok framed)
    (gives : framed.elements = .ok part) (byte : UInt8) (bound : List UInt8)
    (earlier : Array Element) :
    elementsWithin (byte :: bound) start (lengthWord size ++ rest) earlier =
      elementsWithin bound framed.finish framed.rest (earlier ++ part) := by
  simp only [lengthWord, List.cons_append, List.nil_append, elementsWithin,
    headerSize_lengthWord fits, isFramed, gives]

/-- A declared size takes this many bytes, or all if there are fewer. -/
theorem contentOf_ofNat {size : Nat} (short : size < Nat.pow 2 31) (rest : List UInt8) :
    contentOf (.ofNat size) rest = (rest.take size, rest.drop size) := by
  rw [contentOf, if_neg (ofNat_nonneg short), Int32.toInt_ofNat_of_lt short, Int.toNat_natCast,
    List.splitAt_eq]

/-- Content that is there in full is taken as declared. -/
theorem contentOf_append {content : List UInt8} (short : content.length < Nat.pow 2 31)
    (rest : List UInt8) :
    contentOf (.ofNat content.length) (content ++ rest) = (content, rest) := by
  rw [contentOf_ofNat short, List.take_left, List.drop_left]

/-- Raw content is decoded as the message that it was written from. -/
theorem decode_raw {Value : Type} {message : Wire.Reader Value} {content : List UInt8}
    {value : Value} (takes : Wire.Takes message content [] value)
    (small : content.length < messageLimit) :
    decode message (some (.raw content)) = .ok value := by
  have short : content.length < Nat.pow 2 32 := Nat.lt_trans small (by decide)
  rw [decode, if_pos small, Wire.parse_of_takes takes rfl short]
  rfl

/-- A blob is one that is read, and its message gives these elements. -/
structure Blob.Gives (blob : Blob) (elements : List Element) : Prop where
  named : (Text.bytes blob.kind).length < 128
  allowed : blob.IsAllowed
  read : ∀ size, blobElements ⟨blob.kind, size⟩ (some (.raw (writeFields blob.message))) =
    .ok elements

/-- The header of a file gives no elements. -/
theorem Header.blob_gives (header : Header) (allowed : header.blob.IsAllowed) :
    header.blob.Gives [] := by
  have named : (Text.bytes "OSMHeader").length < 128 := by decide +kernel
  refine ⟨named, allowed, fun size => ?_⟩
  have read := decode_raw (Wire.takes_headerBlock header) allowed
  simp only [Header.blob, blobElements, if_true, read]

/-- The blob of a block gives the elements of the block. -/
theorem Block.blob_gives (block : Block) (fits : block.Fits) (allowed : block.blob.IsAllowed) :
    block.blob.Gives block.elements := by
  have named : (Text.bytes "OSMData").length < 128 := by decide +kernel
  refine ⟨named, allowed, fun size => ?_⟩
  have short : block.texts.length < Nat.pow 2 31 :=
    Nat.lt_of_le_of_lt (length_texts_le block) (Nat.lt_trans allowed (by decide))
  have read := decode_raw (Wire.takes_block block short fits.close) allowed
  have other : ¬ "OSMData" = "OSMHeader" := by decide
  simp only [Block.blob, blobElements, if_neg other, if_true, read,
    elements_entry short fits.reaches]

/-- A blob is taken off the front of a file. -/
theorem ofFile_blob {blob : Blob} {elements : List Element} (gives : blob.Gives elements)
    (start : Nat) (rest : List UInt8) :
    Framed.ofFile blob.header.length start (blob.header ++ (blob.content ++ rest)) =
      .ok ⟨⟨blob.kind, .ofNat blob.content.length⟩, blob.content, start + blob.header.length,
        rest⟩ := by
  have short := length_header_lt blob gives.allowed gives.named
  have contentShort := length_content_lt blob gives.allowed
  have read := Wire.parse_of_takes (Wire.takes_blobHeader blob contentShort)
    (rfl : (stretch start blob.header.length).flaw? = none)
    (Nat.lt_trans short (by decide))
  unfold Framed.ofFile
  rw [if_neg (Nat.not_le.2 short)]
  simp only [List.splitAt_eq, List.take_left, List.drop_left, read,
    contentOf_append contentShort rest]

/-- A framed blob gives its elements wherever it stands. -/
theorem framed_elements {blob : Blob} {elements : List Element} (gives : blob.Gives elements)
    (start : Nat) (rest : List UInt8) :
    (Framed.mk ⟨blob.kind, .ofNat blob.content.length⟩ blob.content start rest).elements =
      .ok elements := by
  have read := Wire.parse_of_takes (Wire.takes_blob blob)
    (rfl : (stretch start blob.content.length).flaw? = none)
    (Nat.lt_trans (length_content_lt blob gives.allowed) (by decide))
  simp only [Framed.elements, read, gives.read]

/-- Each blob adds its elements to the earlier ones. -/
theorem elementsWithin_blobs {blobs : List (Blob × List Element)}
    (gives : ∀ pair ∈ blobs, pair.1.Gives pair.2) {bound : List UInt8}
    (enough : blobs.length ≤ bound.length) (start : Nat) (earlier : Array Element) :
    elementsWithin bound start (blobs.flatMap fun pair => pair.1.bytes) earlier =
      .ok (earlier.toList ++ blobs.flatMap fun pair => pair.2) := by
  -- The place in the file and the earlier elements move on with each blob.
  induction blobs generalizing bound start earlier with
  | nil =>
      rw [List.flatMap_nil, List.flatMap_nil, List.append_nil]
      cases bound <;> rfl
  | cons pair blobs inductionHypothesis =>
      cases bound with
      | nil => cases enough
      | cons byte bound =>
          obtain ⟨blob, elements⟩ := pair
          have first : blob.Gives elements := gives (blob, elements) List.mem_cons_self
          have headerFits : blob.header.length < Nat.pow 2 32 :=
            Nat.lt_trans (length_header_lt blob first.allowed first.named) (by decide)
          have later := inductionHypothesis
            (fun other member => gives other (List.mem_cons_of_mem _ member))
            (Nat.le_of_succ_le_succ enough)
          rw [List.flatMap_cons, List.flatMap_cons, Blob.bytes, List.append_assoc,
            List.append_assoc, elementsWithin_of_framed headerFits (ofFile_blob first _ _)
              (framed_elements first _ _)]
          rw [later, Array.toList_appendList, List.append_assoc]

/-- A header gives no elements, and each block gives its own. -/
theorem read_file (header : Option Header) (blocks : List Block)
    (fits : ∀ block ∈ blocks, block.Fits) (allowed : ∀ blob ∈ blobs header blocks, blob.IsAllowed) :
    Pbf.read (file header blocks) = .ok (blocks.flatMap Block.elements) := by
  let headers : List (Blob × List Element) := header.toList.map fun header => (header.blob, [])
  let bodies : List (Blob × List Element) := blocks.map fun block => (block.blob, block.elements)
  have written : (headers ++ bodies).flatMap (fun pair => pair.1.bytes) = file header blocks := by
    simp only [headers, bodies, file, blobs, List.flatMap_append, List.flatMap_map]
  have elements : (headers ++ bodies).flatMap (fun pair => pair.2) =
      blocks.flatMap Block.elements := by
    cases header <;> simp [headers, bodies, List.flatMap_map]
  have gives : ∀ pair ∈ headers ++ bodies, pair.1.Gives pair.2 := by
    intro pair member
    rcases List.mem_append.1 member with inside | inside
    · obtain ⟨header, present, rfl⟩ := List.mem_map.1 inside
      exact header.blob_gives
        (allowed _ (List.mem_append_left _ (List.mem_map_of_mem present)))
    · obtain ⟨block, present, rfl⟩ := List.mem_map.1 inside
      exact block.blob_gives (fits block present)
        (allowed _ (List.mem_append_right _ (List.mem_map_of_mem present)))
  have enough : (headers ++ bodies).length ≤ (file header blocks).length := by
    rw [← written]
    exact Wire.length_le_flatMap (fun pair => by simp [Blob.bytes, lengthWord]) _
  have read := elementsWithin_blobs gives enough 0 #[]
  rwa [written, elements] at read

end Content

end LightList.Pbf

namespace LightList.Source

open Pbf.Content

/--
A file of allowed blobs is read as the elements of its blocks, group by group: the plain nodes, then
the dense ones, then the ways. Of two tags with the same key, the later one counts.
-/
theorem pbf_reads_file (header : Option Header) (blocks : List Block)
    (fits : ∀ block ∈ blocks, block.Fits) (allowed : ∀ blob ∈ blobs header blocks, blob.IsAllowed) :
    pbf (.ok (file header blocks)) = .ok (blocks.flatMap Block.elements) ∧
      ∀ (block : Block) (tags : TagPlaces block.texts.length) (key : String),
        (block.tagsOf tags).get? key = (block.textsOf tags).reverse.lookup key := by
  constructor
  · rw [pbf, read_file header blocks fits allowed]
    rfl
  · intro block tags key
    exact Tags.get?_ofList _ key

/-- A key comes twice, and the identifiers and coordinates of dense nodes go up and down. -/
def lightGroup : Group 5 where
  nodes := [⟨-3, 4, -5, [(1, 2), (0, 3), (1, 4)], none⟩]
  dense := some {
    nodes := [
      ⟨9000000000, 10, -300, [], by decide⟩,
      ⟨Int64.minValue + 9000000000, -20, 300, [(3, 0), (4, 2)], by decide⟩]
    history := some ⟨[1, 2], [1700000000, 5], [-1, 7], [8, -9], [1, 2], [true, false]⟩
    delimited := true
    bare := nofun }
  ways := [⟨77, [9000000000, -3, 9000000000], [(3, 4)], some ⟨some 2, none, none, some (-1), some 3,
    some true⟩⟩]
  relations := [⟨1, [⟨.way, 77, 0⟩, ⟨.node, -3, 1⟩], [(1, 1)], none⟩]

def lightBlock : Block where
  texts := ["", "name", "Elbe", "seamark:type", "Weiße Tonne"]
  groups := [lightGroup]
  granularity := some 1000
  dateGranularity := none
  latOffset := some (-50)
  lonOffset := some (-700)

def lightHeader : Header where
  box := some ⟨-1, 1, 2, -2⟩
  requiredFeatures := ["OsmSchema-V0.6", "DenseNodes"]
  optionalFeatures := []
  program := some "é"
  origin := none
  replicationTime := some (-1)
  replicationNumber := none
  replicationAddress := none

theorem pbf_reads_lights :
    (∀ block ∈ [lightBlock], block.Fits) ∧
      (∀ blob ∈ blobs (some lightHeader) [lightBlock], blob.IsAllowed) ∧
      pbf (.ok (file (some lightHeader) [lightBlock])) =
        .ok [.node (-3) ⟨1e-9 * Float.ofInt (-5700), 1e-9 * Float.ofInt 3950⟩
            (.ofList [("name", "Elbe"), ("", "seamark:type"), ("name", "Weiße Tonne")]),
          .node 9000000000 ⟨1e-9 * Float.ofInt (-300700), 1e-9 * Float.ofInt 9950⟩ .empty,
          .node (Int64.minValue + 9000000000)
            ⟨1e-9 * Float.ofInt 299300, 1e-9 * Float.ofInt (-20050)⟩
            (.ofList [("seamark:type", ""), ("Weiße Tonne", "Elbe")]),
          .way 77 [9000000000, -3, 9000000000] (.ofList [("seamark:type", "Weiße Tonne")])] := by
  have fits : ∀ block ∈ [lightBlock], block.Fits := by decide +kernel
  have allowed : ∀ blob ∈ blobs (some lightHeader) [lightBlock], blob.IsAllowed := by
    decide +kernel
  exact ⟨fits, allowed, (pbf_reads_file (some lightHeader) [lightBlock] fits allowed).1⟩

end LightList.Source
