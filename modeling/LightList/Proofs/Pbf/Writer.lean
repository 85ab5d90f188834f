/-
This file writes the contents of an extract as the bytes of a PBF file.

Each message is a row of fields in ascending order of their numbers. A file is a row of blobs, each
with its message in raw form.
-/

import LightList.Pbf.Container
import LightList.Proofs.Pbf.Content
import LightList.Proofs.Pbf.Fields

namespace LightList.Pbf

namespace WireField

def ofText (number : Nat) (text : String) : WireField := ofContent number (Text.bytes text)

def ofFields (number : Nat) (fields : List WireField) : WireField :=
  ofContent number (writeFields fields)

def bit (value : Bool) : Nat := if value then 1 else 0

end WireField

namespace Content

open WireField

namespace History

def fields (history : History) : List WireField :=
  (history.version.toList.map fun value => ofNumber 1 (lowBits value.toInt)) ++
    (history.time.toList.map fun value => ofNumber 2 (lowBits value.toInt)) ++
    (history.changeSet.toList.map fun value => ofNumber 3 (lowBits value.toInt)) ++
    (history.user.toList.map fun value => ofNumber 4 (lowBits value.toInt)) ++
    (history.userName.toList.map fun value => ofNumber 5 value.toNat) ++
    (history.visible.toList.map fun value => ofNumber 6 (bit value))

end History

section Elements

variable {size : Nat}

def keyFields (tags : TagPlaces size) : List WireField := packed 2 (fun tag => tag.1.val) tags

def valueFields (tags : TagPlaces size) : List WireField := packed 3 (fun tag => tag.2.val) tags

def historyFields (history : Option History) : List WireField :=
  history.toList.map fun history => ofFields 4 history.fields

def Node.fields (node : Node size) : List WireField :=
  [ofNumber 1 (zigzagCode node.id.toInt)] ++ keyFields node.tags ++ valueFields node.tags ++
    historyFields node.history ++ [ofNumber 8 (zigzagCode node.lat.toInt)] ++
    [ofNumber 9 (zigzagCode node.lon.toInt)]

def DenseHistory.fields (history : DenseHistory) : List WireField :=
  packed 1 (fun value => lowBits value.toInt) history.versions ++
    packed 2 (fun value => zigzagCode value.toInt) history.times ++
    packed 3 (fun value => zigzagCode value.toInt) history.changeSets ++
    packed 4 (fun value => zigzagCode value.toInt) history.users ++
    packed 5 (fun value => zigzagCode value.toInt) history.userNames ++
    packed 6 bit history.visible

/-- The places of the tags of each node end with a zero. -/
def DenseNode.keysValues (node : DenseNode size) : List Nat :=
  (node.tags.flatMap fun tag => [tag.1.val, tag.2.val]) ++ [0]

def Dense.keysValues (dense : Dense size) : List Nat :=
  if dense.delimited then dense.nodes.flatMap DenseNode.keysValues else []

def Dense.fields (dense : Dense size) : List WireField :=
  packed 1 zigzagCode (differences 0 (dense.nodes.map DenseNode.id)) ++
    (dense.history.toList.map fun history => ofFields 5 history.fields) ++
    packed 8 zigzagCode (differences 0 (dense.nodes.map DenseNode.lat)) ++
    packed 9 zigzagCode (differences 0 (dense.nodes.map DenseNode.lon)) ++
    packed 10 id dense.keysValues

def Way.fields (way : Way size) : List WireField :=
  [ofNumber 1 (lowBits way.id.toInt)] ++ keyFields way.tags ++ valueFields way.tags ++
    historyFields way.history ++ packed 8 zigzagCode (differences 0 way.references)

def kindCode : Kind → Nat
  | .node => 0
  | .way => 1
  | .relation => 2

def Relation.fields (relation : Relation size) : List WireField :=
  [ofNumber 1 (lowBits relation.id.toInt)] ++ keyFields relation.tags ++
    valueFields relation.tags ++ historyFields relation.history ++
    packed 8 (fun member => member.role.val) relation.members ++
    packed 9 zigzagCode (differences 0 (relation.members.map Member.id)) ++
    packed 10 (fun member => kindCode member.kind) relation.members

def Group.fields (group : Group size) : List WireField :=
  (group.nodes.map fun node => ofFields 1 node.fields) ++
    (group.dense.toList.map fun dense => ofFields 2 dense.fields) ++
    (group.ways.map fun way => ofFields 3 way.fields) ++
    (group.relations.map fun relation => ofFields 4 relation.fields)

end Elements

def Block.fields (block : Block) : List WireField :=
  [ofFields 1 (block.texts.map fun text => ofText 1 text)] ++
    (block.groups.map fun group => ofFields 2 group.fields) ++
    (block.granularity.toList.map fun value => ofNumber 17 (lowBits value.toInt)) ++
    (block.dateGranularity.toList.map fun value => ofNumber 18 (lowBits value.toInt)) ++
    (block.latOffset.toList.map fun value => ofNumber 19 (lowBits value.toInt)) ++
    (block.lonOffset.toList.map fun value => ofNumber 20 (lowBits value.toInt))

def Box.fields (box : Box) : List WireField :=
  [ofNumber 1 (zigzagCode box.left.toInt), ofNumber 2 (zigzagCode box.right.toInt),
    ofNumber 3 (zigzagCode box.top.toInt), ofNumber 4 (zigzagCode box.bottom.toInt)]

def Header.fields (header : Header) : List WireField :=
  (header.box.toList.map fun box => ofFields 1 box.fields) ++
    (header.requiredFeatures.map fun text => ofText 4 text) ++
    (header.optionalFeatures.map fun text => ofText 5 text) ++
    (header.program.toList.map fun text => ofText 16 text) ++
    (header.origin.toList.map fun text => ofText 17 text) ++
    (header.replicationTime.toList.map fun value => ofNumber 32 (lowBits value.toInt)) ++
    (header.replicationNumber.toList.map fun value => ofNumber 33 (lowBits value.toInt)) ++
    (header.replicationAddress.toList.map fun text => ofText 34 text)

/-- Four bytes hold the length of a header, the highest first. -/
def lengthWord (length : Nat) : List UInt8 :=
  [(length / Nat.pow 256 3).toUInt8, (length / Nat.pow 256 2).toUInt8, (length / 256).toUInt8,
    length.toUInt8]

/-- A blob of a kind holds its message in raw form, and its header holds its size. -/
structure Blob where
  kind : String
  message : List WireField

namespace Blob

def content (blob : Blob) : List UInt8 := writeFields [ofFields 1 blob.message]

def header (blob : Blob) : List UInt8 :=
  writeFields [ofText 1 blob.kind, ofNumber 3 blob.content.length]

def bytes (blob : Blob) : List UInt8 :=
  lengthWord blob.header.length ++ (blob.header ++ blob.content)

end Blob

/-- The format allows messages of less than 32 MiB. -/
def Blob.IsAllowed (blob : Blob) : Prop := (writeFields blob.message).length < messageLimit

instance (blob : Blob) : Decidable blob.IsAllowed := inferInstanceAs (Decidable (_ < _))

def Header.blob (header : Header) : Blob := ⟨"OSMHeader", header.fields⟩

def Block.blob (block : Block) : Blob := ⟨"OSMData", block.fields⟩

/-- A file may start with a header; its blocks follow. -/
def blobs (header : Option Header) (blocks : List Block) : List Blob :=
  header.toList.map Header.blob ++ blocks.map Block.blob

def file (header : Option Header) (blocks : List Block) : List UInt8 :=
  (blobs header blocks).flatMap Blob.bytes

end Content

end LightList.Pbf
