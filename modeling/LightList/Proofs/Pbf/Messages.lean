/-
This file shows that each message of an extract is read as what its author put into it.
-/

import LightList.Proofs.Pbf.Writer

namespace LightList.Pbf

namespace Content

section Elements

variable {size : Nat}

def keysOf (tags : TagPlaces size) : Array UInt32 :=
  (tags.map fun tag => tag.1.val.toUInt32).toArray

def valuesOf (tags : TagPlaces size) : Array UInt32 :=
  (tags.map fun tag => tag.2.val.toUInt32).toArray

def differencesOf (values : List Int64) : Array Int64 :=
  ((differences 0 values).map Int64.ofInt).toArray

/-- This is what is read of a node. -/
def Node.entry (node : Node size) : PlainNode where
  id := node.id
  lat := node.lat
  lon := node.lon
  keys := keysOf node.tags
  values := valuesOf node.tags

def Dense.entry (dense : Dense size) : DenseNodes where
  ids := differencesOf (dense.nodes.map DenseNode.id)
  lats := differencesOf (dense.nodes.map DenseNode.lat)
  lons := differencesOf (dense.nodes.map DenseNode.lon)
  keysValues := (dense.keysValues.map Int32.ofNat).toArray

def Way.entry (way : Way size) : WayEntry where
  id := way.id
  keys := keysOf way.tags
  values := valuesOf way.tags
  references := differencesOf way.references

def Group.entry (group : Group size) : Pbf.Group where
  nodes := (group.nodes.map Node.entry).toArray
  dense := (group.dense.map Dense.entry).getD Wire.emptyDense
  ways := (group.ways.map Way.entry).toArray

end Elements

def Block.entry (block : Block) : Pbf.Block where
  strings := (block.texts.map Text.bytes).toArray
  groups := (block.groups.map Group.entry).toArray
  granularity := block.granularity.getD 100
  latOffset := block.latOffset.getD 0
  lonOffset := block.lonOffset.getD 0

end Content

namespace Wire

open Content

variable {size : Nat} {rest : List UInt8}

theorem bit_lt (value : Bool) : WireField.bit value < Nat.pow 2 64 := by
  cases value <;> decide

/-- The fields of a history are known and passed. -/
theorem steps_history (written : History) : Steps historyField () written.fields () := by
  unfold History.fields
  refine .append (.append (.append (.append (.append
    (.dropped fun version _ => ?version) (.dropped fun time _ => ?time))
    (.dropped fun changeSet _ => ?changeSet)) (.dropped fun user _ => ?user))
    (.dropped fun userName _ => ?userName)) (.dropped fun visible _ => ?visible)
  case version => exact .ofNumber (by decide) fun _ => (takes_int32 version).map _
  case time => exact .ofNumber (by decide) fun _ => (takes_uint64 (lowBits_lt _)).map _
  case changeSet =>
    exact .ofNumber (by decide) fun _ => (takes_uint64 (lowBits_lt _)).map _
  case user => exact .ofNumber (by decide) fun _ => (takes_int32 user).map _
  case userName =>
    exact .ofNumber (by decide) fun _ => (takes_uint32 userName.toNat_lt).map _
  case visible =>
    exact .ofNumber (by decide) fun _ => (takes_uint64 (bit_lt visible)).map _

/-- A history is passed as a whole. -/
theorem takes_history (written : History) :
    Takes history (measured (writeFields written.fields)) rest () :=
  takes_message (takes_fields (steps_history written))

section Tags

variable {State : Type} {field : State → Tag → Reader State} {state : State}

/-- The places of the keys, and those of the values, are read as they are. -/
theorem steps_places {tags : TagPlaces size} {number : Nat}
    (part : Fin size × Fin size → Fin size) (short : size < Nat.pow 2 31)
    (put : Array UInt32 → State) (proper : 0 < number ∧ number < Nat.pow 2 29)
    (reads : field state ⟨number, 2⟩ = repeated 2 uint32 #[] >>= fun places => pure (put places))
    (unchanged : put #[] = state) :
    Steps field state (WireField.packed number (fun tag => (part tag).val) tags)
      (put (tags.map fun tag => (part tag).val.toUInt32).toArray) := by
  refine .packed put proper (fun tag _ rest => takes_uint32 ?_) reads unchanged
  exact Nat.lt_trans (part tag).isLt (Nat.lt_trans short (by decide))

/-- An element may have a history, which changes nothing. -/
theorem steps_historyFields (written : Option History)
    (reads : field state ⟨4, 2⟩ = history >>= fun _ => pure state) :
    Steps field state (historyFields written) state :=
  .dropped fun one _ => .ofContent (by decide) fun _ => reads ▸ (takes_history one).map _

/-- Values that are close are read as their differences. -/
theorem steps_differences {values : List Int64} {number : Nat} (close : AreClose values)
    (put : Array Int64 → State) (proper : 0 < number ∧ number < Nat.pow 2 29)
    (reads : field state ⟨number, 2⟩ = repeated 2 sint64 #[] >>= fun read => pure (put read))
    (unchanged : put #[] = state) :
    Steps field state (WireField.packed number zigzagCode (differences 0 values))
      (put (differencesOf values)) :=
  .packed put proper (fun difference member _ => takes_sint64 (close difference member)) reads
    unchanged

end Tags

/-- The draft of a node is followed from field to field. -/
theorem takes_plainNode (node : Content.Node size) (short : size < Nat.pow 2 31) :
    Takes plainNode (measured (writeFields node.fields)) rest node.entry := by
  have id : Steps nodeField ⟨none, none, none, #[], #[]⟩ [.ofNumber 1 (zigzagCode node.id.toInt)]
      ⟨some node.id, none, none, #[], #[]⟩ :=
    .ofNumber (by decide) fun _ => (takes_sint64_toInt node.id).map _
  have keys : Steps nodeField _ (keyFields node.tags)
      ⟨some node.id, none, none, keysOf node.tags, #[]⟩ :=
    steps_places Prod.fst short
      (fun keys => (⟨some node.id, none, none, keys, #[]⟩ : NodeDraft)) (by decide) rfl rfl
  have values : Steps nodeField _ (valueFields node.tags)
      ⟨some node.id, none, none, keysOf node.tags, valuesOf node.tags⟩ :=
    steps_places Prod.snd short
      (fun values => (⟨some node.id, none, none, keysOf node.tags, values⟩ : NodeDraft))
      (by decide) rfl rfl
  have history (draft : NodeDraft) : Steps nodeField draft (historyFields node.history) draft :=
    steps_historyFields node.history rfl
  have lat : Steps nodeField ⟨some node.id, none, none, keysOf node.tags, valuesOf node.tags⟩
      [.ofNumber 8 (zigzagCode node.lat.toInt)]
      ⟨some node.id, some node.lat, none, keysOf node.tags, valuesOf node.tags⟩ :=
    .ofNumber (by decide) fun _ => (takes_sint64_toInt node.lat).map _
  have lon : Steps nodeField
      ⟨some node.id, some node.lat, none, keysOf node.tags, valuesOf node.tags⟩
      [.ofNumber 9 (zigzagCode node.lon.toInt)]
      ⟨some node.id, some node.lat, some node.lon, keysOf node.tags, valuesOf node.tags⟩ :=
    .ofNumber (by decide) fun _ => (takes_sint64_toInt node.lon).map _
  have draft := ((((id.append keys).append values).append (history _)).append lat).append lon
  exact (takes_message (takes_fields draft)).andThen (takes_pure _)

/-- The histories of dense nodes are passed in packed form. -/
theorem steps_denseHistory (written : DenseHistory) :
    Steps denseHistoryField () written.fields () := by
  have versions : Steps denseHistoryField () (WireField.packed 1 _ written.versions) () :=
    .packed (fun _ => ()) (by decide) (fun version _ _ => takes_int32 version) rfl rfl
  have times : Steps denseHistoryField () (WireField.packed 2 _ written.times) () :=
    .packed (fun _ => ()) (by decide)
      (fun time _ _ => takes_uint64 (zigzagCode_lt (fitsLong_toInt time))) rfl rfl
  have changeSets : Steps denseHistoryField () (WireField.packed 3 _ written.changeSets) () :=
    .packed (fun _ => ()) (by decide)
      (fun changeSet _ _ => takes_uint64 (zigzagCode_lt (fitsLong_toInt changeSet))) rfl rfl
  have users : Steps denseHistoryField () (WireField.packed 4 _ written.users) () :=
    .packed (fun _ => ()) (by decide)
      (fun user _ _ => takes_uint32 (zigzagCode_toInt_lt user)) rfl rfl
  have userNames : Steps denseHistoryField () (WireField.packed 5 _ written.userNames) () :=
    .packed (fun _ => ()) (by decide)
      (fun userName _ _ => takes_uint32 (zigzagCode_toInt_lt userName)) rfl rfl
  have visible : Steps denseHistoryField () (WireField.packed 6 _ written.visible) () :=
    .packed (fun _ => ()) (by decide) (fun visible _ _ => takes_uint64 (bit_lt visible)) rfl rfl
  have columns := ((versions.append times).append changeSets).append users
  exact (columns.append userNames).append visible

/-- The places of keys and values, and the zeros between nodes, are short. -/
theorem keysValues_lt {dense : Dense size} (short : size < Nat.pow 2 31) :
    ∀ place ∈ dense.keysValues, place < Nat.pow 2 31 := by
  intro place member
  unfold Dense.keysValues at member
  split at member
  · obtain ⟨node, -, inside⟩ := List.mem_flatMap.1 member
    rcases List.mem_append.1 inside with ofTag | delimiter
    · obtain ⟨tag, -, part⟩ := List.mem_flatMap.1 ofTag
      simp only [List.mem_cons, List.not_mem_nil, or_false] at part
      rcases part with rfl | rfl
      · exact Nat.lt_trans tag.1.isLt short
      · exact Nat.lt_trans tag.2.isLt short
    · rw [List.mem_singleton.1 delimiter]
      decide
  · cases member

/-- Each column of dense nodes fills its own part, and the history fills none. -/
theorem takes_denseNodes (dense : Dense size) (short : size < Nat.pow 2 31)
    (close : dense.IsClose) :
    Takes denseNodes (measured (writeFields dense.fields)) rest dense.entry := by
  let entry := dense.entry
  have ids : Steps denseField emptyDense (WireField.packed 1 zigzagCode _)
      ⟨entry.ids, #[], #[], #[]⟩ :=
    steps_differences close.ids (fun ids => (⟨ids, #[], #[], #[]⟩ : DenseNodes)) (by decide)
      rfl rfl
  have history : Steps denseField ⟨entry.ids, #[], #[], #[]⟩
      (dense.history.toList.map fun history => .ofFields 5 history.fields)
      ⟨entry.ids, #[], #[], #[]⟩ :=
    .dropped fun history _ => .ofContent (by decide) fun _ =>
      (takes_message (takes_fields (steps_denseHistory history))).map _
  have lats : Steps denseField ⟨entry.ids, #[], #[], #[]⟩ (WireField.packed 8 zigzagCode _)
      ⟨entry.ids, entry.lats, #[], #[]⟩ :=
    steps_differences close.lats (fun lats => (⟨entry.ids, lats, #[], #[]⟩ : DenseNodes))
      (by decide) rfl rfl
  have lons : Steps denseField ⟨entry.ids, entry.lats, #[], #[]⟩ (WireField.packed 9 zigzagCode _)
      ⟨entry.ids, entry.lats, entry.lons, #[]⟩ :=
    steps_differences close.lons (fun lons => (⟨entry.ids, entry.lats, lons, #[]⟩ : DenseNodes))
      (by decide) rfl rfl
  have keysValues : Steps denseField ⟨entry.ids, entry.lats, entry.lons, #[]⟩
      (WireField.packed 10 id dense.keysValues) entry :=
    .packed (fun keysValues => (⟨entry.ids, entry.lats, entry.lons, keysValues⟩ : DenseNodes))
      (by decide) (fun place member _ => takes_int32_ofNat (keysValues_lt short place member))
      rfl rfl
  have columns := (((ids.append history).append lats).append lons).append keysValues
  exact takes_message (takes_fields columns)

/-- A way is read with its tags and the differences of its references. -/
theorem takes_wayEntry (way : Content.Way size) (short : size < Nat.pow 2 31)
    (close : AreClose way.references) :
    Takes wayEntry (measured (writeFields way.fields)) rest way.entry := by
  have id : Steps wayField ⟨none, #[], #[], #[]⟩ [.ofNumber 1 (lowBits way.id.toInt)]
      ⟨some way.id, #[], #[], #[]⟩ :=
    .ofNumber (by decide) fun _ => (takes_int64 way.id).map _
  have keys : Steps wayField ⟨some way.id, #[], #[], #[]⟩ (keyFields way.tags)
      ⟨some way.id, keysOf way.tags, #[], #[]⟩ :=
    steps_places Prod.fst short (fun keys => (⟨some way.id, keys, #[], #[]⟩ : WayDraft))
      (by decide) rfl rfl
  have values : Steps wayField ⟨some way.id, keysOf way.tags, #[], #[]⟩ (valueFields way.tags)
      ⟨some way.id, keysOf way.tags, valuesOf way.tags, #[]⟩ :=
    steps_places Prod.snd short
      (fun values => (⟨some way.id, keysOf way.tags, values, #[]⟩ : WayDraft)) (by decide) rfl rfl
  have history (draft : WayDraft) : Steps wayField draft (historyFields way.history) draft :=
    steps_historyFields way.history rfl
  have references : Steps wayField ⟨some way.id, keysOf way.tags, valuesOf way.tags, #[]⟩
      (WireField.packed 8 zigzagCode _)
      ⟨some way.id, keysOf way.tags, valuesOf way.tags, differencesOf way.references⟩ :=
    steps_differences close
      (fun references =>
        (⟨some way.id, keysOf way.tags, valuesOf way.tags, references⟩ : WayDraft))
      (by decide) rfl rfl
  have draft := (((id.append keys).append values).append (history _)).append references
  exact (takes_message (takes_fields draft)).andThen (takes_pure _)

theorem kindCode_lt (kind : Kind) : kindCode kind < Nat.pow 2 31 := by
  cases kind <;> decide

/-- A relation is passed with its members. -/
theorem takes_relationEntry (relation : Relation size) (short : size < Nat.pow 2 31)
    (close : AreClose (relation.members.map Member.id)) :
    Takes relationEntry (measured (writeFields relation.fields)) rest () := by
  have id : Steps relationField false [.ofNumber 1 (lowBits relation.id.toInt)] true :=
    .ofNumber (by decide) fun _ => (takes_uint64 (lowBits_lt relation.id.toInt)).map _
  have keys : Steps relationField true (keyFields relation.tags) true :=
    steps_places Prod.fst short (fun _ => true) (by decide) rfl rfl
  have values : Steps relationField true (valueFields relation.tags) true :=
    steps_places Prod.snd short (fun _ => true) (by decide) rfl rfl
  have history : Steps relationField true (historyFields relation.history) true :=
    steps_historyFields relation.history rfl
  have roles : Steps relationField true
      (WireField.packed 8 (fun member => member.role.val) relation.members) true :=
    .packed (fun _ => true) (by decide)
      (fun member _ _ => takes_int32_ofNat (Nat.lt_trans member.role.isLt short)) rfl rfl
  have ids : Steps relationField true (WireField.packed 9 zigzagCode _) true :=
    steps_differences close (fun _ => true) (by decide) rfl rfl
  have kinds : Steps relationField true
      (WireField.packed 10 (fun member => kindCode member.kind) relation.members) true :=
    .packed (fun _ => true) (by decide)
      (fun member _ _ => takes_int32_ofNat (kindCode_lt member.kind)) rfl rfl
  have hasId :=
    (((((id.append keys).append values).append history).append roles).append ids).append kinds
  exact (takes_message (takes_fields hasId)).andThen (takes_pure _)

/-- A group is read with everything that is in it. -/
theorem takes_group (group : Content.Group size) (short : size < Nat.pow 2 31)
    (close : group.IsClose) :
    Takes Wire.group (measured (writeFields group.fields)) rest group.entry := by
  let entry := group.entry
  have nodes : Steps groupField emptyGroup (group.nodes.map fun node => .ofFields 1 node.fields)
      ⟨entry.nodes, emptyDense, #[]⟩ :=
    .gathered (fun nodes => (⟨nodes, emptyDense, #[]⟩ : Pbf.Group)) fun _ node _ =>
      .ofContent (by decide) fun _ => (takes_plainNode node short).map _
  have dense : Steps groupField ⟨entry.nodes, emptyDense, #[]⟩
      (group.dense.toList.map fun dense => .ofFields 2 dense.fields)
      ⟨entry.nodes, entry.dense, #[]⟩ := by
    refine .optional (fun missing => ?_) (fun dense present => .ofContent (by decide) fun _ => ?_)
    · simp only [entry, Group.entry, missing]
      rfl
    · simp only [entry, Group.entry, present]
      exact (takes_denseNodes dense short (close.dense dense present)).map _
  have ways : Steps groupField ⟨entry.nodes, entry.dense, #[]⟩
      (group.ways.map fun way => .ofFields 3 way.fields) entry :=
    .gathered (fun ways => (⟨entry.nodes, entry.dense, ways⟩ : Pbf.Group)) fun _ way member =>
      .ofContent (by decide) fun _ =>
        (takes_wayEntry way short (close.references way member)).map _
  have relations : Steps groupField entry
      (group.relations.map fun relation => .ofFields 4 relation.fields) entry :=
    .dropped fun relation member => .ofContent (by decide) fun _ =>
      (takes_relationEntry relation short (close.members relation member)).map _
  exact takes_message (takes_fields (((nodes.append dense).append ways).append relations))

/-- The table of texts is read in its order. -/
theorem takes_stringTable (texts : List String) :
    Takes stringTable (measured (writeFields (texts.map fun text => .ofText 1 text))) rest
      (texts.map Text.bytes).toArray := by
  have strings : Steps tableField #[] (texts.map fun text => .ofText 1 text)
      (texts.map Text.bytes).toArray :=
    .gathered (fun strings => strings) fun _ text _ =>
      .ofContent (by decide) fun _ => (takes_bytes (Text.bytes text)).map _
  exact takes_message (takes_fields strings)

/-- A block of few texts is read with its numbers or what stands for them. -/
theorem takes_block (block : Content.Block) (short : block.texts.length < Nat.pow 2 31)
    (close : ∀ group ∈ block.groups, group.IsClose) :
    Takes Wire.block (writeFields block.fields) [] block.entry := by
  let entry := block.entry
  have strings : Steps blockField emptyBlock
      [.ofFields 1 (block.texts.map fun text => .ofText 1 text)]
      ⟨some entry.strings, #[], 100, 0, 0⟩ :=
    .ofContent (by decide) fun _ => (takes_stringTable block.texts).map _
  have groups : Steps blockField ⟨some entry.strings, #[], 100, 0, 0⟩
      (block.groups.map fun group => .ofFields 2 group.fields)
      ⟨some entry.strings, entry.groups, 100, 0, 0⟩ :=
    .gathered (fun groups => (⟨some entry.strings, groups, 100, 0, 0⟩ : BlockDraft))
      fun _ group member => .ofContent (by decide) fun _ =>
        (takes_group group short (close group member)).map _
  have granularity : Steps blockField ⟨some entry.strings, entry.groups, 100, 0, 0⟩
      (block.granularity.toList.map fun value => .ofNumber 17 (lowBits value.toInt))
      ⟨some entry.strings, entry.groups, entry.granularity, 0, 0⟩ :=
    .defaulted 100
      (fun granularity => (⟨some entry.strings, entry.groups, granularity, 0, 0⟩ : BlockDraft))
      (by decide) (fun value _ => takes_int32 value) rfl
  have dateGranularity (draft : BlockDraft) : Steps blockField draft
      (block.dateGranularity.toList.map fun value => .ofNumber 18 (lowBits value.toInt)) draft :=
    .dropped fun value _ => .ofNumber (by decide) fun _ => (takes_int32 value).map _
  have latOffset : Steps blockField ⟨some entry.strings, entry.groups, entry.granularity, 0, 0⟩
      (block.latOffset.toList.map fun value => .ofNumber 19 (lowBits value.toInt))
      ⟨some entry.strings, entry.groups, entry.granularity, entry.latOffset, 0⟩ :=
    .defaulted 0
      (fun latOffset =>
        (⟨some entry.strings, entry.groups, entry.granularity, latOffset, 0⟩ : BlockDraft))
      (by decide) (fun value _ => takes_int64 value) rfl
  have lonOffset : Steps blockField
      ⟨some entry.strings, entry.groups, entry.granularity, entry.latOffset, 0⟩
      (block.lonOffset.toList.map fun value => .ofNumber 20 (lowBits value.toInt))
      ⟨some entry.strings, entry.groups, entry.granularity, entry.latOffset, entry.lonOffset⟩ :=
    .defaulted 0
      (fun lonOffset => (⟨some entry.strings, entry.groups, entry.granularity, entry.latOffset,
        lonOffset⟩ : BlockDraft))
      (by decide) (fun value _ => takes_int64 value) rfl
  have draft := ((((strings.append groups).append granularity).append (dateGranularity _)).append
    latOffset).append lonOffset
  exact (takes_fields draft).andThen (takes_pure _)

/-- All four sides of a box are found. -/
theorem takes_boundingBox (box : Box) :
    Takes boundingBox (measured (writeFields box.fields)) rest #[1, 2, 3, 4] := by
  have side (seen : Array Nat) {number : Nat} (proper : 0 < number ∧ number < Nat.pow 2 29)
      (value : Int64) : Steps boxField seen [.ofNumber number (zigzagCode value.toInt)]
        (seen.push number) :=
    .ofNumber proper fun _ =>
      (takes_skip_number (zigzagCode_lt (fitsLong_toInt value))).andThen (takes_pure _)
  have left := side #[] (by decide : 0 < 1 ∧ 1 < Nat.pow 2 29) box.left
  have right := side #[1] (by decide : 0 < 2 ∧ 2 < Nat.pow 2 29) box.right
  have top := side #[1, 2] (by decide : 0 < 3 ∧ 3 < Nat.pow 2 29) box.top
  have bottom := side #[1, 2, 3] (by decide : 0 < 4 ∧ 4 < Nat.pow 2 29) box.bottom
  exact takes_message (takes_fields (((left.append right).append top).append bottom))

/-- A box is complete if there is one, and the texts and numbers of a header are passed over. -/
theorem takes_headerBlock (header : Header) :
    Takes headerBlock (writeFields header.fields) [] () := by
  let box : Option (Array Nat) := header.box.map fun _ => #[1, 2, 3, 4]
  have complete : box.all isBoxComplete = true := by
    cases given : header.box with
    | none => simp only [box, given, Option.map_none, Option.all_none]
    | some sides => simp [box, given, isBoxComplete]
  have sides : Steps headerField none (header.box.toList.map fun box => .ofFields 1 box.fields)
      box := by
    refine .optional (fun missing => ?_) (fun sides present => .ofContent (by decide) fun _ => ?_)
    · simp only [box, missing, Option.map_none]
    · simp only [box, present, Option.map_some]
      exact (takes_boundingBox sides).map _
  have texts (number : Nat) (proper : 0 < number ∧ number < Nat.pow 2 29)
      (reads : headerField box ⟨number, 2⟩ = text >>= fun _ => pure box) (values : List String) :
      Steps headerField box (values.map fun value => .ofText number value) box :=
    .dropped fun value _ => .ofContent proper fun _ => reads ▸ (takes_text value).map _
  have numbers (number : Nat) (proper : 0 < number ∧ number < Nat.pow 2 29)
      (reads : headerField box ⟨number, 0⟩ = skip 0 >>= fun _ => pure box) (values : List Int64) :
      Steps headerField box (values.map fun value => .ofNumber number (lowBits value.toInt)) box :=
    .dropped fun value _ => .ofNumber proper fun _ =>
      reads ▸ (takes_skip_number (lowBits_lt value.toInt)).map _
  have read := ((((((sides.append (texts 4 (by decide) rfl header.requiredFeatures)).append
    (texts 5 (by decide) rfl header.optionalFeatures)).append
    (texts 16 (by decide) rfl header.program.toList)).append
    (texts 17 (by decide) rfl header.origin.toList)).append
    (numbers 32 (by decide) rfl header.replicationTime.toList)).append
    (numbers 33 (by decide) rfl header.replicationNumber.toList)).append
    (texts 34 (by decide) rfl header.replicationAddress.toList)
  refine (takes_fields read).andThen ?_
  rw [complete, if_pos rfl]
  exact takes_pure _

/-- The header of a blob is read as its kind and its size. -/
theorem takes_blobHeader (blob : Blob) (short : blob.content.length < Nat.pow 2 31) :
    Takes blobHeader blob.header [] ⟨blob.kind, .ofNat blob.content.length⟩ := by
  have kind : Steps blobHeaderField ⟨none, none⟩ [.ofText 1 blob.kind] ⟨some blob.kind, none⟩ :=
    .ofContent (by decide) fun _ => (takes_text blob.kind).map _
  have size : Steps blobHeaderField ⟨some blob.kind, none⟩ [.ofNumber 3 blob.content.length]
      ⟨some blob.kind, some (.ofNat blob.content.length)⟩ :=
    .ofNumber (by decide) fun _ => (takes_int32_ofNat short).map _
  exact (takes_fields (kind.append size)).andThen (takes_pure _)

/-- A blob without compression is read as its message. -/
theorem takes_blob (blob : Blob) :
    Takes Wire.blob blob.content [] (some (.raw (writeFields blob.message))) :=
  takes_fields (.ofContent (by decide) fun _ => (takes_bytes (writeFields blob.message)).map _)

end Wire

end LightList.Pbf
