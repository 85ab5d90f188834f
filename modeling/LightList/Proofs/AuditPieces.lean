/-
This file says exactly which features and notices an audit gives from any tally, and that an extract
may be audited piece by piece.
-/

import LightList.Proofs.AuditFeatures

namespace LightList

namespace Tags

/-- The value stands on a key before which no key has a value that is not empty. -/
def IsFirstPresent (tags : Tags) (keys : List String) (value : String) : Prop :=
  ∃ before key after, keys = before ++ key :: after ∧ tags.get? key = some value ∧ value ≠ "" ∧
    ∀ earlier ∈ before, tags.get? earlier = none ∨ tags.get? earlier = some ""

/-- The first key with a value that is not empty decides. -/
theorem firstPresent_eq_some_iff {tags : Tags} {keys : List String} {value : String} :
    tags.firstPresent keys = some value ↔ tags.IsFirstPresent keys value := by
  have passed (key : String) :
      ((tags.get? key).filter fun value => value != "") = none ↔
        tags.get? key = none ∨ tags.get? key = some "" := by
    cases tags.get? key with
    | none => simp
    | some other => simp
  have taken (key : String) :
      ((tags.get? key).filter fun value => value != "") = some value ↔
        tags.get? key = some value ∧ value ≠ "" := by
    simp [Option.filter_eq_some_iff]
  simp only [firstPresent, List.findSome?_eq_some_iff, passed, taken, IsFirstPresent, and_assoc]

end Tags

namespace Element

/-- This is the character of an element, if it has one outside the vocabulary. -/
def stray? (vocabulary : Vocabulary) (element : Element) : Option String :=
  (element.tags.light? "character").filter fun character => !vocabulary.contains character

/-- This is the notice about an element whose stray character has no place. -/
def strayNotice? (vocabulary : Vocabulary) (index : PointIndex) (element : Element) :
    Option Notice :=
  (element.stray? vocabulary).bind fun character =>
    match element.place? index with
    | none => some (.characterUnplaced element.id character)
    | some _ => none

/-- A feature shows an element when it has its identifier, its place and its attributes. -/
structure IsShownBy (element : Element) (vocabulary : Vocabulary) (index : PointIndex)
    (feature : Feature) : Prop where
  id : feature.id = element.id
  position : element.place? index = some feature.position
  character : element.tags.IsFirstPresent ["seamark:light:character", "seamark:light:1:character"]
    feature.character
  outside : vocabulary.contains feature.character = false
  name (value : String) : feature.name = some value ↔
    element.tags.IsFirstPresent ["name", "seamark:name", "seamark:light:name"] value
  sequence (value : String) : feature.sequence = some value ↔
    element.tags.IsFirstPresent ["seamark:light:sequence", "seamark:light:1:sequence"] value
  period (value : String) : feature.period = some value ↔
    element.tags.IsFirstPresent ["seamark:light:period", "seamark:light:1:period"] value
  group (value : String) : feature.group = some value ↔
    element.tags.IsFirstPresent ["seamark:light:group", "seamark:light:1:group"] value

section Features

variable {vocabulary : Vocabulary} {index : PointIndex} {element : Element}

/-- A stray character is the first present one, and the vocabulary does not know it. -/
theorem stray?_eq_some_iff {character : String} :
    element.stray? vocabulary = some character ↔
      element.tags.IsFirstPresent ["seamark:light:character", "seamark:light:1:character"]
        character ∧ vocabulary.contains character = false := by
  rw [stray?, Option.filter_eq_some_iff, Bool.not_eq_true', ← Tags.firstPresent_eq_some_iff]
  rfl

/-- A feature needs a stray character and a place. -/
theorem feature?_eq :
    element.feature? vocabulary index =
      (element.stray? vocabulary).bind fun character =>
        (element.place? index).map fun position => element.feature position character := by
  unfold feature? stray?
  cases element.tags.light? "character" with
  | none => rfl
  | some character =>
      cases known : vocabulary.contains character with
      | true => simp [known, Option.filter]
      | false => simp [known, Option.filter]

/-- The feature of an element is the one that shows its stray character at its place. -/
theorem feature?_eq_some_iff {feature : Feature} :
    element.feature? vocabulary index = some feature ↔
      element.IsShownBy vocabulary index feature := by
  rw [feature?_eq, Option.bind_eq_some_iff]
  constructor
  · rintro ⟨character, stray, shown⟩
    obtain ⟨position, placed, rfl⟩ := Option.map_eq_some_iff.1 shown
    obtain ⟨present, outside⟩ := stray?_eq_some_iff.1 stray
    exact ⟨rfl, placed, present, outside, fun _ => Tags.firstPresent_eq_some_iff,
      fun _ => Tags.firstPresent_eq_some_iff, fun _ => Tags.firstPresent_eq_some_iff,
      fun _ => Tags.firstPresent_eq_some_iff⟩
  · intro shown
    refine ⟨feature.character, stray?_eq_some_iff.2 ⟨shown.character, shown.outside⟩, ?_⟩
    rw [shown.position, Option.map_some]
    have name : element.tags.name? = feature.name :=
      Option.ext fun value => Tags.firstPresent_eq_some_iff.trans (shown.name value).symm
    have sequence : element.tags.light? "sequence" = feature.sequence :=
      Option.ext fun value => Tags.firstPresent_eq_some_iff.trans (shown.sequence value).symm
    have period : element.tags.light? "period" = feature.period :=
      Option.ext fun value => Tags.firstPresent_eq_some_iff.trans (shown.period value).symm
    have group : element.tags.light? "group" = feature.group :=
      Option.ext fun value => Tags.firstPresent_eq_some_iff.trans (shown.group value).symm
    rw [Element.feature, ← shown.id, name, sequence, period, group]

/-- An element is shown when it has a stray character and a place. -/
theorem exists_isShownBy_iff :
    (∃ feature, element.IsShownBy vocabulary index feature) ↔
      (∃ character, element.tags.IsFirstPresent
        ["seamark:light:character", "seamark:light:1:character"] character ∧
          vocabulary.contains character = false) ∧
        ∃ position, element.place? index = some position := by
  constructor
  · rintro ⟨feature, shown⟩
    exact ⟨⟨_, shown.character, shown.outside⟩, _, shown.position⟩
  · rintro ⟨⟨character, stray⟩, position, placed⟩
    refine ⟨element.feature position character, feature?_eq_some_iff.1 ?_⟩
    rw [feature?_eq, stray?_eq_some_iff.2 stray, placed]
    rfl

/-- A stray character makes either a feature or a notice, and nothing else makes one. -/
theorem stray_balance (vocabulary : Vocabulary) (index : PointIndex) (element : Element) :
    (if (element.stray? vocabulary).isSome then 1 else 0) =
      (element.feature? vocabulary index).toList.length +
        (element.strayNotice? vocabulary index).toList.length := by
  rw [feature?_eq, strayNotice?]
  cases element.stray? vocabulary with
  | none => rfl
  | some character =>
      cases element.place? index with
      | none => rfl
      | some position => rfl

end Features

end Element

namespace Audit

/-- What a later audit gives is put behind what an earlier one gave; the later tally remains. -/
def followedBy (first second : Audit) : Audit :=
  ⟨first.features ++ second.features, first.notices ++ second.notices, second.tally⟩

section Pieces

variable (index : PointIndex)

/-- An audit that has seen nothing yet adds nothing. -/
theorem followedBy_start (audit : Audit) : audit.followedBy (start audit.tally) = audit := by
  simp [followedBy, start]

/-- A step looks at the tally alone, so what was given before stays in front. -/
theorem visit_followedBy (first second : Audit) (element : Element) :
    visit index (first.followedBy second) element =
      first.followedBy (visit index second element) := by
  unfold visit
  cases element.tags.light? "character" with
  | none => rfl
  | some character =>
      dsimp only [followedBy]
      split
      · rfl
      · split
        · simp
        · simp

/-- What came before an audit does not change what it adds. -/
theorem foldl_followedBy (elements : List Element) (first second : Audit) :
    elements.foldl (visit index) (first.followedBy second) =
      first.followedBy (elements.foldl (visit index) second) := by
  induction elements generalizing second with
  | nil => rfl
  | cons element rest inductionHypothesis =>
      rw [List.foldl_cons, List.foldl_cons, visit_followedBy, inductionHypothesis]

/-- Auditing two pieces one after the other is auditing them together. -/
theorem ofElements_append (first second : List Element) (tally : Tally) :
    ofElements (first ++ second) index tally =
      (ofElements first index tally).followedBy
        (ofElements second index (ofElements first index tally).tally) := by
  rw [ofElements, List.foldl_append, ofElements.eq_1 second, ← foldl_followedBy, followedBy_start]
  rfl

/-- One step from a tally alone. -/
theorem ofElements_single (tally : Tally) (element : Element) :
    (ofElements [element] index tally).notices.toList =
      (element.strayNotice? tally.vocabulary index).toList := by
  change (visit index (start tally) element).notices.toList = _
  unfold visit Element.strayNotice? Element.stray?
  cases element.tags.light? "character" with
  | none => rfl
  | some character =>
      cases known : tally.vocabulary.contains character with
      | true => simp [start, Tally.classify_conforming known, known, Option.filter]
      | false =>
          cases element.place? index with
          | none => simp [start, Tally.classify, known, Option.filter]
          | some position => simp [start, Tally.classify, known]

/-- An audit never changes its vocabulary. -/
theorem vocabulary_ofElements (elements : List Element) (tally : Tally) :
    (ofElements elements index tally).tally.vocabulary = tally.vocabulary := by
  rw [tally_ofElements, Tally.vocabulary_run]

/-- The notices are those of the single elements, in their order. -/
theorem notices_ofElements (elements : List Element) (tally : Tally) :
    (ofElements elements index tally).notices.toList =
      elements.filterMap (Element.strayNotice? tally.vocabulary index) := by
  induction elements generalizing tally with
  | nil => rfl
  | cons element rest inductionHypothesis =>
      rw [← List.singleton_append, ofElements_append, List.filterMap_append]
      change (_ ++ _ : Array Notice).toList = _
      rw [Array.toList_append, ofElements_single, inductionHypothesis, vocabulary_ofElements]
      rfl

/-- The stray characters are as many as the features and the notices together. -/
theorem countP_stray (vocabulary : Vocabulary) (elements : List Element) :
    elements.countP (fun element => (element.stray? vocabulary).isSome) =
      (elements.filterMap fun element => element.feature? vocabulary index).length +
        (elements.filterMap (Element.strayNotice? vocabulary index)).length := by
  induction elements with
  | nil => rfl
  | cons element rest inductionHypothesis =>
      have here := Element.stray_balance vocabulary index element
      rw [List.countP_cons, inductionHypothesis, here, List.filterMap_cons, List.filterMap_cons]
      cases element.feature? vocabulary index <;>
        cases element.strayNotice? vocabulary index <;>
        simp <;> omega

/-- What is tallied are the stray characters. -/
theorem filterMap_stray (vocabulary : Vocabulary) (elements : List Element) :
    ((elements.filterMap fun element => element.tags.light? "character").filter
        fun character => !vocabulary.contains character) =
      elements.filterMap (Element.stray? vocabulary) := by
  rw [List.filter_filterMap]
  rfl

/-- The total grows by the number of stray characters. -/
theorem total_ofElements (elements : List Element) {tally : Tally}
    (consistent : Tally.Consistent tally) :
    (ofElements elements index tally).tally.total =
      tally.total + elements.countP fun element => (element.stray? tally.vocabulary).isSome := by
  rw [tally_ofElements, Tally.total_run consistent, filterMap_stray, List.length_filterMap_eq_countP]

end Pieces

/--
From any tally that calls have left, an audit shows exactly the elements with a stray character and a
place, in their order, and tallies every stray character; auditing in two pieces gives the same.
-/
theorem ofElements_exact (vocabulary : Vocabulary) (values : List String)
    (elements more : List Element) (index : PointIndex) :
    let tally := (Tally.new vocabulary).run values
    let audit := ofElements elements index tally
    let later := ofElements more index audit.tally
    let whole := ofElements (elements ++ more) index tally
    let strays := elements.countP fun element => (element.stray? vocabulary).isSome
    audit.features.toList =
        elements.filterMap (fun element => element.feature? vocabulary index) ∧
      (∀ (element : Element) (feature : Feature),
        element.feature? vocabulary index = some feature ↔
          element.IsShownBy vocabulary index feature) ∧
      (∀ element : Element, (∃ feature, element.IsShownBy vocabulary index feature) ↔
        (element.stray? vocabulary).isSome = true ∧ (element.place? index).isSome = true) ∧
      (∀ (element : Element) (character : String),
        element.stray? vocabulary = some character ↔
          element.tags.IsFirstPresent ["seamark:light:character", "seamark:light:1:character"]
            character ∧ vocabulary.contains character = false) ∧
      audit.tally.total = tally.total + strays ∧
      strays = audit.features.size + audit.notices.size ∧
      (∀ notice ∈ audit.notices, notice.record.severity = .debug) ∧
      whole.features = audit.features ++ later.features ∧
      whole.notices = audit.notices ++ later.notices ∧
      whole.tally = later.tally := by
  intro tally audit later whole strays
  have vocabularyKept : tally.vocabulary = vocabulary := Tally.vocabulary_run _ values
  have consistent : Tally.Consistent tally :=
    Tally.consistent_run (Tally.consistent_new vocabulary) values
  have features : audit.features.toList =
      elements.filterMap fun element => element.feature? vocabulary index := by
    rw [← vocabularyKept]
    exact features_ofElements elements index tally
  have notices : audit.notices.toList =
      elements.filterMap (Element.strayNotice? vocabulary index) := by
    rw [← vocabularyKept]
    exact notices_ofElements index elements tally
  have pieces : whole = audit.followedBy later := ofElements_append index elements more tally
  refine ⟨features, fun _ _ => Element.feature?_eq_some_iff, ?_,
    fun _ _ => Element.stray?_eq_some_iff, ?_, ?_, ?_, ?_⟩
  · intro element
    rw [Element.exists_isShownBy_iff, Option.isSome_iff_exists, Option.isSome_iff_exists]
    simp only [Element.stray?_eq_some_iff]
  · rw [show audit.tally.total = _ from total_ofElements index elements consistent, vocabularyKept]
  · rw [← Array.length_toList, features, ← Array.length_toList, notices]
    exact countP_stray index vocabulary elements
  · intro notice member
    rw [← Array.mem_toList_iff, notices] at member
    obtain ⟨element, _, found⟩ := List.mem_filterMap.1 member
    obtain ⟨character, _, told⟩ := Option.bind_eq_some_iff.1 found
    split at told
    · cases told
      rfl
    · cases told
  · rw [pieces]
    exact ⟨rfl, rfl, rfl⟩

end Audit

end LightList
