/-
This file holds what an author puts into a PBF extract, and which elements it stands for.

A block has a table of texts, and its tags are pairs of places in that table. Nodes come plain or
dense. The first text of a table ends the tags of a dense node, so it is no key of one.
-/

import LightList.Element
import LightList.Proofs.Pbf.Varint

namespace LightList.Pbf.Content

/-- Each tag has the places of its key and of its value in a table of the given size. -/
abbrev TagPlaces (size : Nat) := List (Fin size × Fin size)

/-- The history of an element says who changed it and when. -/
structure History where
  version : Option Int32
  time : Option Int64
  changeSet : Option Int64
  user : Option Int32
  userName : Option UInt32
  visible : Option Bool

structure Node (size : Nat) where
  id : Int64
  lat : Int64
  lon : Int64
  tags : TagPlaces size
  history : Option History

structure DenseNode (size : Nat) where
  id : Int64
  lat : Int64
  lon : Int64
  tags : TagPlaces size
  unreserved : ∀ tag ∈ tags, tag.1.val ≠ 0

/-- The histories of dense nodes stand in columns, most of them as differences. -/
structure DenseHistory where
  versions : List Int32
  times : List Int64
  changeSets : List Int64
  users : List Int32
  userNames : List Int32
  visible : List Bool

/-- When no node has tags, the places of the tags may be left out altogether. -/
structure Dense (size : Nat) where
  nodes : List (DenseNode size)
  history : Option DenseHistory
  delimited : Bool
  bare : delimited = false → ∀ node ∈ nodes, node.tags = []

structure Way (size : Nat) where
  id : Int64
  references : List Int64
  tags : TagPlaces size
  history : Option History

structure Member (size : Nat) where
  kind : Kind
  id : Int64
  role : Fin size

structure Relation (size : Nat) where
  id : Int64
  members : List (Member size)
  tags : TagPlaces size
  history : Option History

structure Group (size : Nat) where
  nodes : List (Node size)
  dense : Option (Dense size)
  ways : List (Way size)
  relations : List (Relation size)

/-- Coordinates are counted in hundreds of nanodegrees from zero unless the block says otherwise. -/
structure Block where
  texts : List String
  groups : List (Group texts.length)
  granularity : Option Int32
  dateGranularity : Option Int32
  latOffset : Option Int64
  lonOffset : Option Int64

structure Box where
  left : Int64
  right : Int64
  top : Int64
  bottom : Int64

/-- A header says what a file needs from its readers, and where it comes from. -/
structure Header where
  box : Option Box
  requiredFeatures : List String
  optionalFeatures : List String
  program : Option String
  origin : Option String
  replicationTime : Option Int64
  replicationNumber : Option Int64
  replicationAddress : Option String

/-- Each value is kept as the difference from the one before it, and the first from zero. -/
def differences : Int → List Int64 → List Int
  | _, [] => []
  | last, value :: rest => (value.toInt - last) :: differences value.toInt rest

namespace Block

def step (block : Block) : Int := (block.granularity.getD 100).toInt

def latStart (block : Block) : Int := (block.latOffset.getD 0).toInt

def lonStart (block : Block) : Int := (block.lonOffset.getD 0).toInt

/-- A coordinate counts steps from an offset, both in nanodegrees. -/
def position (block : Block) (lat lon : Int64) : Position where
  lon := 1e-9 * Float.ofInt (block.lonStart + block.step * lon.toInt)
  lat := 1e-9 * Float.ofInt (block.latStart + block.step * lat.toInt)

/-- These are the keys and values that stand at the places of tags. -/
def textsOf (block : Block) (tags : TagPlaces block.texts.length) : List (String × String) :=
  tags.map fun tag => (block.texts.get tag.1, block.texts.get tag.2)

/-- Of two tags with the same key, the later one counts. -/
def tagsOf (block : Block) (tags : TagPlaces block.texts.length) : Tags :=
  .ofList (block.textsOf tags)

def node (block : Block) (node : Node block.texts.length) : Element :=
  .node node.id (block.position node.lat node.lon) (block.tagsOf node.tags)

def denseNode (block : Block) (node : DenseNode block.texts.length) : Element :=
  .node node.id (block.position node.lat node.lon) (block.tagsOf node.tags)

def way (block : Block) (way : Way block.texts.length) : Element :=
  .way way.id way.references (block.tagsOf way.tags)

/-- Plain nodes come first, then the dense ones, then the ways; relations stand for nothing. -/
def groupElements (block : Block) (group : Group block.texts.length) : List Element :=
  group.nodes.map block.node ++
    group.dense.toList.flatMap (fun dense => dense.nodes.map block.denseNode) ++
    group.ways.map block.way

def elements (block : Block) : List Element := block.groups.flatMap block.groupElements

/-- The coordinates that these counts stand for fit in nanodegrees. -/
structure Reaches (block : Block) (lat lon : Int64) : Prop where
  latFits : FitsLong (block.latStart + block.step * lat.toInt)
  lonFits : FitsLong (block.lonStart + block.step * lon.toInt)

instance (block : Block) (lat lon : Int64) : Decidable (block.Reaches lat lon) :=
  decidable_of_iff (_ ∧ _) ⟨fun fits => ⟨fits.1, fits.2⟩, fun fits => ⟨fits.1, fits.2⟩⟩

end Block

/-- The differences of these values fit. -/
def AreClose (values : List Int64) : Prop :=
  ∀ difference ∈ differences 0 values, FitsLong difference

instance (values : List Int64) : Decidable (AreClose values) :=
  inferInstanceAs (Decidable (∀ difference ∈ differences 0 values, FitsLong difference))

/-- All that is computed of dense nodes fits. -/
structure Dense.IsClose {size : Nat} (dense : Dense size) : Prop where
  ids : AreClose (dense.nodes.map DenseNode.id)
  lats : AreClose (dense.nodes.map DenseNode.lat)
  lons : AreClose (dense.nodes.map DenseNode.lon)

instance {size : Nat} (dense : Dense size) : Decidable dense.IsClose :=
  decidable_of_iff (_ ∧ _ ∧ _)
    ⟨fun close => ⟨close.1, close.2.1, close.2.2⟩, fun close => ⟨close.1, close.2, close.3⟩⟩

/-- All differences in a group fit. -/
structure Group.IsClose {size : Nat} (group : Group size) : Prop where
  dense : ∀ dense ∈ group.dense, dense.IsClose
  references : ∀ way ∈ group.ways, AreClose way.references
  members : ∀ relation ∈ group.relations, AreClose (relation.members.map Member.id)

instance {size : Nat} (group : Group size) : Decidable group.IsClose :=
  decidable_of_iff (_ ∧ _ ∧ _)
    ⟨fun close => ⟨close.1, close.2.1, close.2.2⟩, fun close => ⟨close.1, close.2, close.3⟩⟩

/-- All coordinates of a group can be computed. -/
structure Block.ReachesGroup (block : Block) (group : Group block.texts.length) : Prop where
  nodes : ∀ node ∈ group.nodes, block.Reaches node.lat node.lon
  dense : ∀ dense ∈ group.dense, ∀ node ∈ dense.nodes, block.Reaches node.lat node.lon

instance (block : Block) (group : Group block.texts.length) :
    Decidable (block.ReachesGroup group) :=
  decidable_of_iff (_ ∧ _)
    ⟨fun reaches => ⟨reaches.1, reaches.2⟩, fun reaches => ⟨reaches.1, reaches.2⟩⟩

/-- All that is computed of a block fits. -/
structure Block.Fits (block : Block) : Prop where
  close : ∀ group ∈ block.groups, group.IsClose
  reaches : ∀ group ∈ block.groups, block.ReachesGroup group

instance (block : Block) : Decidable block.Fits :=
  decidable_of_iff (_ ∧ _) ⟨fun fits => ⟨fits.1, fits.2⟩, fun fits => ⟨fits.1, fits.2⟩⟩

end LightList.Pbf.Content
