/-
This file shows that the tags of a feature mean the same as a value and as the text of that value.

Two documents are compared that differ in the tags of one feature only.
-/

import LightList.Proofs.Json.Frames
import LightList.Proofs.PostpassFormat
import LightList.Proofs.PostpassHits
import LightList.Proofs.SpelledTags

namespace LightList.Postpass

open Json Json.Written Json.Reader

section Frames

variable {frame : Frame} {tree : Written}

/-- Other tags in the same document change only the tags that are found there. -/
theorem properties?_plug (isAt : frame.IsAt 1) {properties : Properties}
    (found : properties? (frame.plug "tags" tree) = some properties) (other : Written) :
    properties? (frame.plug "tags" other) =
      (tagsValue? other).map fun tags => { properties with tags } := by
  cases frame with
  | object front back =>
      have different : "tags" ≠ "osm_id" := by decide
      change propertiesOfMembers? _ = _ at found
      change propertiesOfMembers? _ = _
      simp only [propertiesOfMembers?, Option.bind_eq_bind, Option.bind_eq_some_iff,
        field?_plug_of_ne different] at found ⊢
      obtain ⟨_, idField, _, tagsField, id, rfl, same⟩ := found
      cases same
      obtain ⟨tags, _, rfl, exchanged⟩ := field?_plug tagsField
      rw [idField, exchanged other]
      cases tagsValue? other with
      | none => rfl
      | some tags => rfl
  | list front back =>
      obtain ⟨first, rfl⟩ := List.length_eq_one_iff.1 isAt
      change takeAll? takeProperties (first :: tree :: back) = _ at found
      change takeAll? takeProperties (first :: other :: back) = _
      rw [takeProperties, takeAll?_takeItem_bind] at found ⊢
      simp only [takeAll?_bind_pure, takeAll?_takeItemOr] at found ⊢
      obtain ⟨id, read, found⟩ := Option.bind_eq_some_iff.1 found
      obtain ⟨tags, found, rfl⟩ := Option.map_eq_some_iff.1 found
      split at found
      · next ended =>
          rw [read, if_pos ended]
          rfl
      · cases found

/-- Other properties of a feature change only what is taken from them. -/
theorem hit?_plug (isAt : frame.IsAt 0) {hit : Hit}
    (found : hit? (frame.plug "properties" tree) = some hit) :
    ∃ properties coordinates, properties? tree = some properties ∧
      hit = hitOf properties coordinates ∧
      ∀ other, hit? (frame.plug "properties" other) =
        (properties? other).map fun properties => hitOf properties coordinates := by
  cases frame with
  | object front back =>
      have different : "properties" ≠ "geometry" := by decide
      change hitOfMembers? _ = _ at found
      change ∃ properties coordinates, _ ∧ _ ∧ ∀ other, hitOfMembers? _ = _
      simp only [hitOfMembers?, Option.bind_eq_bind, Option.bind_eq_some_iff,
        field?_plug_of_ne different] at found ⊢
      obtain ⟨_, propertiesField, coordinates, geometryField, properties, rfl, same⟩ := found
      cases same
      obtain ⟨_, read, same, exchanged⟩ := field?_plug propertiesField
      cases same
      refine ⟨properties, coordinates.join, read, rfl, ?_⟩
      intro other
      rw [geometryField, exchanged other]
      cases properties? other with
      | none => rfl
      | some properties => rfl
  | list front back =>
      obtain rfl := List.length_eq_zero_iff.1 isAt
      change takeAll? takeHit (tree :: back) = _ at found
      change ∃ properties coordinates, _ ∧ _ ∧ ∀ other, takeAll? takeHit (other :: back) = _
      simp only [takeHit, takeAll?_takeItem_bind, takeAll?_bind_pure] at found ⊢
      obtain ⟨properties, read, found⟩ := Option.bind_eq_some_iff.1 found
      obtain ⟨coordinates, taken, rfl⟩ := Option.map_eq_some_iff.1 found
      refine ⟨properties, coordinates, read, rfl, ?_⟩
      intro other
      rw [taken]
      cases properties? other with
      | none => rfl
      | some properties => rfl

/-- The hits of an answer are those of its list, whatever stands around it. -/
theorem hits?_plug (isAt : frame.IsAt 0) {found : List Hit}
    (held : hits? (frame.plug "features" tree) = some found) :
    listOf? hit? tree = some found ∧
      ∀ other, hits? (frame.plug "features" other) = listOf? hit? other := by
  apply record?_plug_only isAt (fun _ => rfl) (fun _ => Option.map_eq_bind) _ held
  intro item more
  exact takeAll?_takeItemOr item more (listOf? hit?) []

/-- Other properties change nothing but the feature that has them. -/
theorem hits?_exchange {root feature : Frame} (rootAt : root.IsAt 0) (featureAt : feature.IsAt 0)
    {front back : List Written} {found : List Hit}
    (held : hits? (root.plug "features"
      (.array (front ++ feature.plug "properties" tree :: back))) = some found) :
    ∃ before properties coordinates after, found = before ++ hitOf properties coordinates :: after ∧
      before.length = front.length ∧ properties? tree = some properties ∧
      ∀ other,
        hits? (root.plug "features" (.array (front ++ feature.plug "properties" other :: back))) =
          (properties? other).map fun properties =>
            before ++ hitOf properties coordinates :: after := by
  obtain ⟨listed, exchangedList⟩ := hits?_plug rootAt held
  obtain ⟨before, hit, after, rfl, sameLength, read, exchangedHit⟩ := mapM_exchange listed
  obtain ⟨properties, coordinates, propertiesRead, rfl, exchangedProperties⟩ :=
    hit?_plug featureAt read
  refine ⟨before, properties, coordinates, after, rfl, sameLength, propertiesRead, ?_⟩
  intro other
  have exchanged := exchangedHit (feature.plug "properties" other)
  rw [exchangedProperties, Option.map_map] at exchanged
  rw [exchangedList, listOf?, exchanged]
  rfl

end Frames

/-- This is a document without the tags of one of its features. -/
structure Surroundings where
  root : Frame
  front : List Written
  back : List Written
  feature : Frame
  properties : Frame
  rootAt : root.IsAt 0
  featureAt : feature.IsAt 0
  propertiesAt : properties.IsAt 1

namespace Surroundings

variable (surroundings : Surroundings)

def document (tags : Written) : Written :=
  surroundings.root.plug "features"
    (.array (surroundings.front ++
      surroundings.feature.plug "properties" (surroundings.properties.plug "tags" tags) ::
        surroundings.back))

/-- Other tags change nothing but the tags of that feature. -/
theorem hits?_document {tags : Written} {found : List Hit}
    (held : hits? (surroundings.document tags) = some found) :
    ∃ before hit after, found = before ++ hit :: after ∧
      before.length = surroundings.front.length ∧
      ∀ other, hits? (surroundings.document other) =
        (tagsValue? other).map fun tags => before ++ { hit with tags } :: after := by
  obtain ⟨before, properties, coordinates, after, rfl, sameLength, propertiesRead, exchanged⟩ :=
    hits?_exchange surroundings.rootAt surroundings.featureAt held
  refine ⟨before, hitOf properties coordinates, after, rfl, sameLength, ?_⟩
  intro other
  rw [document, exchanged, properties?_plug surroundings.propertiesAt propertiesRead,
    Option.map_map]
  rfl

/-- In another document the feature has other tags, and all else is as it was. -/
theorem hits_document {tags : Written} {tagsBytes : List UInt8} {before after : List Hit}
    {hit : Hit} (writes : (surroundings.document tags).WritesDocument tagsBytes)
    (held : hits tagsBytes = .ok (before ++ hit :: after))
    (here : before.length = surroundings.front.length) {other : Written} {value : Option Json}
    {otherBytes : List UInt8} (otherWrites : (surroundings.document other).WritesDocument otherBytes)
    (otherRead : tagsValue? other = some value) :
    hits otherBytes = .ok (before ++ { hit with tags := value } :: after) := by
  obtain ⟨front, found, back, same, sameLength, exchanged⟩ :=
    surroundings.hits?_document ((hits_eq_ok_iff writes _).1 held)
  obtain ⟨rfl, sameRest⟩ := List.append_inj same (here.trans sameLength.symm)
  cases sameRest
  rw [hits_eq_ok_iff otherWrites, exchanged other, otherRead]
  rfl

end Surroundings

section Decoding

variable {tree : Written} {value : Json} {text : String}

/-- The text is one that the tree is written as, or the compact one of its value. -/
def Spells (text : String) (tree : Written) (value : Json) : Prop :=
  tree.WritesDocument (Text.bytes text) ∨ text = value.compact

/-- Tags that are given as a text are decoded as the object that the text writes. -/
theorem decodeTags_text (writes : tree.WritesDocument (Text.bytes text)) :
    (decodeTags (some (.string text))).toOption = tree.tags? := by
  have decided := document_eq_ok_iff reads_tagMap writes
  have decoded : decodeTags (some (.string text)) = document tagMap (Text.bytes text) := rfl
  rw [decoded]
  cases read : document tagMap (Text.bytes text) with
  | ok tags => exact ((decided tags).1 read).symm
  | error error =>
      cases found : tree.tags? with
      | none => rfl
      | some tags =>
          rw [(decided tags).2 found] at read
          cases read

/-- Tags that are spelled in a text are decoded as if they were given directly. -/
theorem decodeTags_spelled (isRead : IsRead tree value) (distinct : tree.HasDistinctKeys)
    (spells : Spells text tree value) :
    (decodeTags (some (.string text))).toOption = tree.tags? := by
  rcases spells with writes | rfl
  · exact decodeTags_text writes
  · obtain ⟨printed, isPrinted⟩ := exists_isPrintedAs value
    rw [decodeTags_text isPrinted.prints.writesDocument, isPrinted.tags, isRead.tags? distinct]

/-- A value that is neither null nor a string is decoded as it is. -/
theorem decodeTags_value (isRead : IsRead tree value) (notNull : tree ≠ .null)
    (notText : tree.text? = none) (distinct : tree.HasDistinctKeys) :
    (decodeTags (some value)).toOption = tree.tags? := by
  rw [isRead.tags? distinct]
  cases isRead with
  | null => exact (notNull rfl).elim
  | string text => cases notText
  | _ => rfl

end Decoding

section Readings

variable {bytes : List UInt8} {before after : List Hit} {hit : Hit}

/-- Among sound features, tags that decode become those of a node. -/
theorem read_around_decoded {tags : Tags} (held : hits bytes = .ok (before ++ hit :: after))
    (usable : hit.isUsable = true) (sound : AreSound (before ++ after))
    (decoded : (decodeTags hit.tags).toOption = some tags) :
    ∃ position, hit.position? = some position ∧
      read bytes =
        ⟨.featuresReturned (before ++ hit :: after).length :: warnings (before ++ after),
          .ok (nodes before ++ .node hit.id position tags :: nodes after)⟩ := by
  obtain ⟨position, placed⟩ := Hit.isUsable_iff_exists_position?.1 usable
  have node : hit.node? = some (.node hit.id position tags) := by
    rw [Hit.node?, placed, Option.bind_some, decoded, Option.map_some]
  have all : AreSound (before ++ hit :: after) := by
    intro other member
    rcases List.mem_append.1 member with inside | inside
    · exact sound other (List.mem_append_left after inside)
    · rcases List.mem_cons.1 inside with rfl | inside
      · intro _
        cases result : decodeTags other.tags with
        | ok tags => exact ⟨tags, result⟩
        | error error =>
            rw [result] at decoded
            cases decoded
      · exact sound other (List.mem_append_right before inside)
  refine ⟨position, placed, ?_⟩
  rw [read_of_areSound held all]
  simp [nodes, warnings, List.filterMap_append, List.filterMap_cons_some node, usable]

/-- The tags of the feature with this identifier are the fault. -/
def FailsAt (id : ElementId) (reading : Reading) : Prop :=
  ∃ error, reading.result = .error (.tags id error)

/--
The first usable hit whose tags cannot be decoded ends the reading, after the warnings so far.
-/
theorem read_around_undecoded (held : hits bytes = .ok (before ++ hit :: after))
    (usable : hit.isUsable = true) (sound : AreSound (before ++ after))
    (undecoded : (decodeTags hit.tags).toOption = none) :
    FailsAt hit.id (read bytes) ∧
      (read bytes).notices =
        .featuresReturned (before ++ hit :: after).length :: warnings before := by
  cases decoded : decodeTags hit.tags with
  | error error =>
      have soundBefore : AreSound before :=
        fun other member => sound other (List.mem_append_left after member)
      rw [read_of_spoilt held soundBefore usable decoded]
      exact ⟨⟨error, rfl⟩, rfl⟩
  | ok tags =>
      rw [decoded] at undecoded
      cases undecoded

end Readings

/-- A name in these tags has exactly the text that it has among the members. -/
def Holds (tags : Tags) (pairs : List (String × String)) : Prop :=
  ∀ key text, tags.get? key = some text ↔ (key, text) ∈ pairs

/-- Pairs with distinct keys are all held. -/
theorem holds_ofList {pairs : List (String × String)} (distinct : (pairs.map Prod.fst).Nodup) :
    Holds (.ofList pairs) pairs := by
  intro key text
  have reversed : (pairs.reverse.map Prod.fst).Nodup := by
    rw [List.map_reverse, List.nodup_reverse]
    exact distinct
  rw [Tags.get?_ofList, Keyed.lookup_eq_some_iff reversed, List.mem_reverse]

/--
Whether the tags of a feature are written as a value or as a string with the text of that value makes
no difference: they are the members of the value if these are all strings, and the fault otherwise. A
string is opened only once.
-/
theorem read_spelled (surroundings : Surroundings) {tree : Written} {value : Json} {text : String}
    {valueBytes textBytes : List UInt8} {before after : List Hit} {hit : Hit}
    (notNull : tree ≠ .null) (notText : tree.text? = none) (distinct : tree.HasDistinctKeys)
    (withinLimits : tree? (depthLimit - 4) tree = some value) (spells : Spells text tree value)
    (asValue : (surroundings.document tree).WritesDocument valueBytes)
    (asText : (surroundings.document (.string text)).WritesDocument textBytes)
    (held : hits textBytes = .ok (before ++ hit :: after))
    (here : before.length = surroundings.front.length) (usable : hit.isUsable = true)
    (sound : AreSound (before ++ after)) :
    (∀ pairs, tree = .object (stringMembers pairs) →
      ∃ position tags, hit.position? = some position ∧ Holds tags pairs ∧
        (read textBytes).result =
          .ok (nodes before ++ .node hit.id position tags :: nodes after) ∧
        read valueBytes = read textBytes) ∧
    ((∀ pairs, tree ≠ .object (stringMembers pairs)) →
      FailsAt hit.id (read textBytes) ∧ FailsAt hit.id (read valueBytes) ∧
        (read valueBytes).notices = (read textBytes).notices) ∧
    ∀ inner outer nestedBytes, (Written.string inner).WritesDocument (Text.bytes outer) →
      (surroundings.document (.string outer)).WritesDocument nestedBytes →
        FailsAt hit.id (read nestedBytes) := by
  have valued : tagsValue? tree = some (some value) := tagsValue?_of_ne_null notNull withinLimits
  have valueHeld := surroundings.hits_document asText held here asValue valued
  have textHeld :
      hits textBytes = .ok (before ++ { hit with tags := some (.string text) } :: after) :=
    surroundings.hits_document asText held here asText rfl
  have isRead := isRead_of_tree? withinLimits
  have textDecoded := decodeTags_spelled isRead distinct spells
  have valueDecoded := decodeTags_value isRead notNull notText distinct
  refine ⟨?_, ?_, ?_⟩
  · rintro pairs rfl
    rw [tags?_stringMembers] at textDecoded valueDecoded
    obtain ⟨position, placed, textRead⟩ := read_around_decoded textHeld usable sound textDecoded
    obtain ⟨other, otherPlaced, valueRead⟩ :=
      read_around_decoded valueHeld usable sound valueDecoded
    cases otherPlaced.symm.trans placed
    refine ⟨position, .ofList pairs, placed, ?_, ?_, ?_⟩
    · apply holds_ofList
      rw [Written.HasDistinctKeys, stringMembers, List.map_map] at distinct
      exact distinct
    · rw [textRead]
    · rw [textRead, valueRead]
      simp
  · intro other
    have undecoded : tree.tags? = none := by
      rw [Option.eq_none_iff_forall_ne_some]
      intro tags found
      obtain ⟨pairs, same⟩ := exists_stringMembers found
      exact other pairs same
    rw [undecoded] at textDecoded valueDecoded
    obtain ⟨textFails, textNotices⟩ := read_around_undecoded textHeld usable sound textDecoded
    obtain ⟨valueFails, valueNotices⟩ := read_around_undecoded valueHeld usable sound valueDecoded
    refine ⟨textFails, valueFails, ?_⟩
    rw [textNotices, valueNotices]
    simp
  · intro inner outer nestedBytes writesInner writes
    have nestedHeld :
        hits nestedBytes = .ok (before ++ { hit with tags := some (.string outer) } :: after) :=
      surroundings.hits_document asText held here writes rfl
    exact (read_around_undecoded nestedHeld usable sound (decodeTags_text writesInner)).1

/-- These tags have quotes, backslashes and control characters in keys and values. -/
def quayTags : List (String × String) := [("a\"b\\", "\x01\n"), ("name", "Quai \"Nord\"")]

def quayValue : Json := .object (ofTexts quayTags)

def quayAnswer (tags : Json) : Json := answerJson [featureJson 7 tags (pointJson 1 2)]

def quay : Surroundings where
  root := .object [("type", .string "FeatureCollection")] []
  front := []
  back := []
  feature := .object [("type", .string "Feature")] [("geometry", plainPoint 1 2)]
  properties := .object [("osm_id", .number (.ofInt (7 : Int64).toInt))] []
  rootAt := trivial
  featureAt := trivial
  propertiesAt := trivial

theorem quay_writesDocument {tags : Json} {tree : Written} (prints : Prints tags tree) :
    (quay.document tree).WritesDocument (Text.bytes (quayAnswer tags).compact) :=
  writesDocument_plainAnswer (.cons (prints_plainFeature 7 prints (prints_plainPoint 1 2)) .nil)

theorem exists_hits?_quay (text : String) :
    ∃ hit, hits? (quay.document (.string text)) = some [hit] ∧ hit.id = 7 ∧
      hit.isUsable = true := by
  obtain ⟨lon, lat, placed⟩ := exists_coordinatesIn?_plainPoint 1 2
  have same : quay.document (.string text) =
      plainAnswer [plainFeature 7 (.string text) (plainPoint 1 2)] := rfl
  refine ⟨⟨7, some (.string text), [lon, lat]⟩, ?_, rfl, rfl⟩
  rw [same, hits?_plainAnswer, List.mapM_cons, hit?_plainFeature, placed]
  rfl

/-- The tags hold both ways, although the string escapes them twice. -/
theorem read_spelled_quay :
    read (Text.bytes (quayAnswer quayValue).compact) =
        read (Text.bytes (quayAnswer (.string quayValue.compact)).compact) ∧
      ∃ position tags, Holds tags quayTags ∧
        (read (Text.bytes (quayAnswer (.string quayValue.compact)).compact)).result =
          .ok [.node 7 position tags] := by
  have prints : Prints quayValue (.object (stringMembers quayTags)) :=
    prints_object (.cons ⟨rfl, prints_string _⟩ (.cons ⟨rfl, prints_string _⟩ .nil))
  have textWrites := quay_writesDocument (prints_string quayValue.compact)
  obtain ⟨hit, found, isSeven, usable⟩ := exists_hits?_quay quayValue.compact
  have held : hits (Text.bytes (quayAnswer (.string quayValue.compact)).compact) =
      .ok ([] ++ hit :: []) := (hits_eq_ok_iff textWrites [hit]).2 found
  have notNull : Written.object (stringMembers quayTags) ≠ .null := nofun
  have distinct : (Written.object (stringMembers quayTags)).HasDistinctKeys :=
    (by decide : (quayTags.map Prod.fst).Nodup)
  have noOthers : AreSound ([] ++ []) := nofun
  obtain ⟨succeeds, _, _⟩ := read_spelled quay notNull rfl distinct rfl (.inr rfl)
    (quay_writesDocument prints) textWrites held rfl usable noOthers
  obtain ⟨position, tags, _, holds, result, same⟩ := succeeds quayTags rfl
  rw [isSeven] at result
  exact ⟨same, position, tags, holds, result⟩

end LightList.Postpass
