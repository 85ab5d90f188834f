/-
This file shows that the messages of an extract are turned into the elements they stand for.
-/

import LightList.Pbf.Extract
import LightList.Proofs.Pbf.Messages

namespace LightList.Pbf.Content

/-- Summing the differences gives the values back, even where a difference does not fit. -/
theorem running_differences (start : Int64) (values : List Int64) :
    running start ((differences start.toInt values).map Int64.ofInt) = values := by
  induction values generalizing start with
  | nil => rfl
  | cons value rest inductionHypothesis =>
      have sum : start + Int64.ofInt (value.toInt - start.toInt) = value := by
        calc start + Int64.ofInt (value.toInt - start.toInt)
            = Int64.ofInt start.toInt + Int64.ofInt (value.toInt - start.toInt) := by
              rw [Int64.ofInt_toInt]
          _ = Int64.ofInt value.toInt := by
              rw [← Int64.ofInt_add]
              congr 1
              omega
          _ = value := Int64.ofInt_toInt value
      rw [differences, List.map_cons, running, sum, inductionHypothesis]

/-- Adding up the differences gives the values back. -/
theorem running_differencesOf (values : List Int64) :
    running 0 (differencesOf values).toList = values :=
  running_differences 0 values

/-- A place below the sign bit is read as it was written. -/
theorem tablePlace?_ofNat {place : Nat} (short : place < Nat.pow 2 31) :
    tablePlace? (.ofNat place) = some place := by
  rw [tablePlace?, if_neg (ofNat_nonneg short), Int32.toInt_ofNat_of_lt short, Int.toNat_natCast]

section Tags

variable {size : Nat}

/-- The tags of a dense node are read up to the zero that ends them. -/
theorem splitKeysValues_delimited {tags : TagPlaces size} (short : size < Nat.pow 2 31)
    (unreserved : ∀ tag ∈ tags, tag.1.val ≠ 0) (rest : List Nat) :
    splitKeysValues
        (((tags.flatMap fun (tag : Fin size × Fin size) => [tag.1.val, tag.2.val]) ++ [0] ++
          rest).map Int32.ofNat) =
      (tags.map fun tag => (.ofNat tag.1.val, .ofNat tag.2.val), rest.map Int32.ofNat) := by
  induction tags with
  | nil =>
      -- A zero with nothing behind it is no pair, but ends the tags all the same.
      cases rest with
      | nil => rfl
      | cons place rest => rfl
  | cons tag tags inductionHypothesis =>
      have other : Int32.ofNat tag.1.val ≠ 0 :=
        ofNat_ne_zero (Nat.lt_trans tag.1.isLt short) (unreserved tag List.mem_cons_self)
      have later := inductionHypothesis fun one member =>
        unreserved one (List.mem_cons_of_mem _ member)
      simp only [List.flatMap_cons, List.cons_append, List.nil_append, List.map_cons,
        splitKeysValues, if_neg other, later]

/-- The places of keys and values are paired again as they were written. -/
theorem zip_places (tags : TagPlaces size) (short : size < Nat.pow 2 31) :
    ((keysOf tags).toList.map fun index => some index.toNat).zip
        ((valuesOf tags).toList.map fun index => some index.toNat) =
      tags.map fun tag => (some tag.1.val, some tag.2.val) := by
  have same (place : Fin size) : place.val.toUInt32.toNat = place.val := by
    have fits : place.val < Nat.pow 2 32 :=
      Nat.lt_trans place.isLt (Nat.lt_trans short (by decide))
    simpa using fits
  simp only [keysOf, valuesOf, List.map_map, Function.comp_def, same, List.zip_map']

end Tags

namespace Block

variable {block : Block}

/-- Each place of the table holds its text. -/
theorem text?_entry (place : Fin block.texts.length) :
    block.entry.text? place.val = some (block.texts.get place) := by
  have held : block.entry.strings[place.val]? = some (Text.bytes (block.texts.get place)) := by
    simp [entry]
  unfold Pbf.Block.text?
  rw [held]
  exact Text.fromUTF8?_bytes (block.texts.get place)

/-- Each pair of places leads to its key and its value. -/
theorem pairsOf_entry (tags : TagPlaces block.texts.length) :
    block.entry.pairsOf (tags.map fun tag => (some tag.1.val, some tag.2.val)) =
      block.textsOf tags := by
  induction tags with
  | nil => rfl
  | cons tag tags inductionHypothesis =>
      simp only [List.map_cons, Pbf.Block.pairsOf, Option.bind_some, text?_entry,
        inductionHypothesis]
      rfl

/-- The tags of an element are found again in the table of texts. -/
theorem tagsOf_entry (short : block.texts.length < Nat.pow 2 31)
    (tags : TagPlaces block.texts.length) :
    block.entry.tagsOf (keysOf tags) (valuesOf tags) = block.tagsOf tags := by
  unfold Pbf.Block.tagsOf
  dsimp only
  rw [zip_places tags short, pairsOf_entry]
  rfl

/-- The tags of a dense node are found again in the table of texts. -/
theorem denseTags_entry (short : block.texts.length < Nat.pow 2 31)
    (tags : TagPlaces block.texts.length) :
    block.entry.denseTags (tags.map fun tag => (.ofNat tag.1.val, .ofNat tag.2.val)) =
      block.tagsOf tags := by
  have place (index : Fin block.texts.length) : tablePlace? (.ofNat index.val) = some index.val :=
    tablePlace?_ofNat (Nat.lt_trans index.isLt short)
  unfold Pbf.Block.denseTags
  simp only [List.map_map, Function.comp_def, place]
  rw [pairsOf_entry]
  rfl

/-- What is computed in 64 bits is the coordinate if that fits. -/
theorem degrees_eq {offset value : Int64} {granularity : Int32}
    (fits : FitsLong (offset.toInt + granularity.toInt * value.toInt)) :
    Pbf.Block.degrees offset granularity value =
      1e-9 * Float.ofInt (offset.toInt + granularity.toInt * value.toInt) := by
  have computed : offset + granularity.toInt64 * value =
      Int64.ofInt (offset.toInt + granularity.toInt * value.toInt) := by
    rw [Int64.ofInt_add, Int64.ofInt_mul, Int64.ofInt_toInt, Int64.ofInt_toInt,
      ← Int32.toInt_toInt64, Int64.ofInt_toInt]
  rw [Pbf.Block.degrees, computed, Int64.toInt_ofInt_of_le fits.1 fits.2]

/-- A position that is in reach is computed from the same coordinates. -/
theorem position_entry {lat lon : Int64} (reaches : block.Reaches lat lon) :
    block.entry.position lat lon = block.position lat lon := by
  unfold Pbf.Block.position position
  congr 1
  · exact degrees_eq reaches.lonFits
  · exact degrees_eq reaches.latFits

/-- A node is decoded as what was written. -/
theorem plainNode_entry (short : block.texts.length < Nat.pow 2 31)
    {node : Node block.texts.length} (reaches : block.Reaches node.lat node.lon) :
    block.entry.plainNode node.entry = block.node node := by
  unfold Pbf.Block.plainNode Block.node
  rw [← position_entry reaches, ← tagsOf_entry short node.tags]
  rfl

/-- A way is decoded as what was written. -/
theorem way_entry (short : block.texts.length < Nat.pow 2 31) (way : Way block.texts.length) :
    block.entry.way way.entry = block.way way := by
  unfold Pbf.Block.way Block.way
  rw [← tagsOf_entry short way.tags]
  congr 1
  exact running_differencesOf way.references

/-- The places of the tags either end after each node or are left out altogether. -/
theorem denseNodesFrom_entry (short : block.texts.length < Nat.pow 2 31)
    {nodes : List (DenseNode block.texts.length)} {places : List Nat}
    (delimited : places = nodes.flatMap DenseNode.keysValues ∨
      places = [] ∧ ∀ node ∈ nodes, node.tags = [])
    (reaches : ∀ node ∈ nodes, block.Reaches node.lat node.lon) :
    block.entry.denseNodesFrom (nodes.map DenseNode.id) (nodes.map DenseNode.lat)
        (nodes.map DenseNode.lon) (places.map Int32.ofNat) =
      nodes.map block.denseNode := by
  induction nodes generalizing places with
  | nil => rfl
  | cons node nodes inductionHypothesis =>
      have split : ∃ later, splitKeysValues (places.map Int32.ofNat) =
            (node.tags.map fun tag => (.ofNat tag.1.val, .ofNat tag.2.val), later.map Int32.ofNat) ∧
          (later = nodes.flatMap DenseNode.keysValues ∨
            later = [] ∧ ∀ node ∈ nodes, node.tags = []) := by
        rcases delimited with rfl | ⟨rfl, bare⟩
        · exact ⟨_, splitKeysValues_delimited short node.unreserved _, .inl rfl⟩
        · refine ⟨[], ?_, .inr ⟨rfl, fun one member => bare one (List.mem_cons_of_mem _ member)⟩⟩
          rw [bare node List.mem_cons_self]
          rfl
      -- Either way the places behind this node are those of the nodes behind it.
      obtain ⟨later, first, further⟩ := split
      have others := inductionHypothesis further fun one member =>
        reaches one (List.mem_cons_of_mem _ member)
      simp only [List.map_cons, Pbf.Block.denseNodesFrom, first, others, denseTags_entry short,
        position_entry (reaches node List.mem_cons_self)]
      rfl

/-- Dense nodes are decoded as what was written, in their order. -/
theorem denseNodes_entry (short : block.texts.length < Nat.pow 2 31)
    {dense : Dense block.texts.length}
    (reaches : ∀ node ∈ dense.nodes, block.Reaches node.lat node.lon) :
    block.entry.denseNodes dense.entry = dense.nodes.map block.denseNode := by
  have delimited : dense.keysValues = dense.nodes.flatMap DenseNode.keysValues ∨
      dense.keysValues = [] ∧ ∀ node ∈ dense.nodes, node.tags = [] := by
    unfold Dense.keysValues
    cases given : dense.delimited with
    | true => exact .inl rfl
    | false => exact .inr ⟨rfl, dense.bare given⟩
  unfold Pbf.Block.denseNodes
  simp only [Dense.entry, running_differencesOf]
  exact denseNodesFrom_entry short delimited reaches

/-- The nodes, dense nodes and ways of a group are decoded as what was written. -/
theorem groupElements_entry (short : block.texts.length < Nat.pow 2 31)
    {group : Group block.texts.length} (reaches : block.ReachesGroup group) :
    block.entry.groupElements group.entry = block.groupElements group := by
  have nodes : group.entry.nodes.toList.map block.entry.plainNode = group.nodes.map block.node := by
    simp only [Group.entry, List.map_map]
    exact List.map_congr_left fun node member => plainNode_entry short (reaches.nodes node member)
  have dense : block.entry.denseNodes group.entry.dense =
      group.dense.toList.flatMap fun dense => dense.nodes.map block.denseNode := by
    cases given : group.dense with
    | none =>
        simp only [Group.entry, given]
        rfl
    | some dense =>
        simp only [Group.entry, given, Option.map_some, Option.getD_some, Option.toList_some,
          List.flatMap_singleton]
        exact denseNodes_entry short (reaches.dense dense given)
  have ways : group.entry.ways.toList.map block.entry.way = group.ways.map block.way := by
    simp only [Group.entry, List.map_map]
    exact List.map_congr_left fun way _ => way_entry short way
  unfold Pbf.Block.groupElements groupElements
  rw [nodes, dense, ways]

/-- The groups of a block are decoded as what was written, in their order. -/
theorem elements_entry (short : block.texts.length < Nat.pow 2 31)
    (reaches : ∀ group ∈ block.groups, block.ReachesGroup group) :
    block.entry.elements = block.elements := by
  unfold Pbf.Block.elements elements
  simp only [entry, List.flatMap_map]
  exact congrArg List.flatten
    (List.map_congr_left fun group member => groupElements_entry short (reaches group member))

end Block

end LightList.Pbf.Content
