/-
This file says what looking up a key gives in keyed entries and in tags.
-/

import LightList.Attribute

namespace LightList

namespace Keyed

variable {Value : Type}

theorem lookup_cons_eq {Key : Type} [BEq Key] [LawfulBEq Key] [DecidableEq Key] (other : Key)
    (entry : Key × Value) (rest : List (Key × Value)) :
    (entry :: rest).lookup other = if other = entry.1 then some entry.2 else rest.lookup other := by
  rw [List.lookup_cons]
  by_cases same : other = entry.1
  · simp [same]
  · rw [if_neg same, beq_false_of_ne same]

/-- What is placed is found under its key, and everything else is as it was. -/
theorem lookup_place (key : String) (value : Value) (entries : List (String × Value))
    (other : String) :
    (place key value entries).lookup other =
      if other = key then some value else entries.lookup other := by
  induction entries with
  | nil => simp [place, placeBy, lookup_cons_eq]
  | cons entry rest inductionHypothesis =>
      rw [place_cons]
      split
      · rw [lookup_cons_eq]
      · split
        · next same =>
            simp only [lookup_cons_eq, same]
            split
            · rfl
            · rfl
        · next different =>
            rw [lookup_cons_eq, lookup_cons_eq, inductionHypothesis]
            by_cases atEntry : other = entry.1
            · simp [atEntry, Ne.symm different]
            · simp [atEntry]

/-- The last entry with a key decides what the key has. -/
theorem lookup_ofList (entries : List (String × Value)) (key : String) :
    (ofList entries).lookup key = entries.reverse.lookup key := by
  have started (placed : List (String × Value)) :
      (entries.foldl (fun placed entry => place entry.1 entry.2 placed) placed).lookup key =
        (entries.reverse.lookup key).or (placed.lookup key) := by
    induction entries generalizing placed with
    | nil => simp
    | cons entry rest inductionHypothesis =>
        rw [List.foldl_cons, inductionHypothesis, lookup_place, List.reverse_cons,
          List.lookup_append, lookup_cons_eq, Option.or_assoc]
        congr 1
        split
        · rfl
        · rfl
  rw [ofList, started, List.lookup_nil, Option.or_none]

/-- A filter hides the keys that fail the test. -/
theorem lookup_filter (entries : List (String × Value)) (test : String → Bool) (key : String) :
    (entries.filter fun entry => test entry.1).lookup key =
      if test key then entries.lookup key else none := by
  induction entries with
  | nil => simp
  | cons entry rest inductionHypothesis =>
      rw [List.filter_cons, lookup_cons_eq]
      by_cases same : key = entry.1
      · subst same
        rw [if_pos rfl]
        split
        · rw [lookup_cons_eq, if_pos rfl]
        · next rejected => rw [inductionHypothesis, if_neg rejected]
      · rw [if_neg same]
        split
        · rw [lookup_cons_eq, if_neg same, inductionHypothesis]
        · exact inductionHypothesis

/-- A key above all others goes to the end. -/
theorem place_of_above {key : String} (value : Value) {entries : List (String × Value)}
    (above : ∀ entry ∈ entries, entry.1 < key) :
    place key value entries = entries ++ [(key, value)] := by
  induction entries with
  | nil => rfl
  | cons entry rest inductionHypothesis =>
      have below := above entry List.mem_cons_self
      have different : key ≠ entry.1 := by
        rintro rfl
        exact String.lt_irrefl _ below
      rw [place_cons, if_neg (String.lt_asymm below), if_neg different,
        inductionHypothesis fun other member => above other (List.mem_cons_of_mem _ member)]
      rfl

/-- Entries that ascend already are kept as they are. -/
theorem ofList_of_ascending {entries : List (String × Value)} (ascending : Ascending entries) :
    ofList entries = entries := by
  have started (placed : List (String × Value)) (all : Ascending (placed ++ entries)) :
      entries.foldl (fun placed entry => place entry.1 entry.2 placed) placed =
        placed ++ entries := by
    induction entries generalizing placed with
    | nil => simp
    | cons entry rest inductionHypothesis =>
        have above : ∀ other ∈ placed, other.1 < entry.1 := by
          intro other member
          exact (List.pairwise_append.1 all).2.2 other member entry List.mem_cons_self
        rw [List.foldl_cons, place_of_above entry.2 above,
          inductionHypothesis (List.pairwise_cons.1 ascending).2 _ (by simpa using all)]
        simp
  exact started [] ascending

/-- A key below all others is not there. -/
theorem lookup_of_below {key : String} {entries : List (String × Value)}
    (below : ∀ entry ∈ entries, key < entry.1) : entries.lookup key = none := by
  rw [List.lookup_eq_none_iff]
  intro entry member
  exact bne_iff_ne.2 (String.ne_of_lt (below entry member))

/-- A key that is found is not below all keys. -/
theorem not_lt_of_lookup {entry other : String × Value} {rest more : List (String × Value)}
    (above : ∀ later ∈ more, other.1 < later.1)
    (same : ∀ key, (entry :: rest).lookup key = (other :: more).lookup key) :
    ¬ entry.1 < other.1 := by
  intro below
  have found := same entry.1
  rw [lookup_cons_eq, if_pos rfl, lookup_of_below] at found
  · cases found
  · intro later member
    rcases List.mem_cons.1 member with rfl | further
    · exact below
    · exact String.lt_trans below (above later further)

/-- Ascending entries are determined by what their keys have. -/
theorem eq_of_lookup {first second : List (String × Value)} (firstAscending : Ascending first)
    (secondAscending : Ascending second)
    (same : ∀ key, first.lookup key = second.lookup key) : first = second := by
  induction first generalizing second with
  | nil =>
      cases second with
      | nil => rfl
      | cons other more =>
          have found := same other.1
          rw [lookup_cons_eq, if_pos rfl] at found
          cases found
  | cons entry rest inductionHypothesis =>
      cases second with
      | nil =>
          have found := same entry.1
          rw [lookup_cons_eq, if_pos rfl] at found
          cases found
      | cons other more =>
          obtain ⟨above, restAscending⟩ := List.pairwise_cons.1 firstAscending
          obtain ⟨otherAbove, moreAscending⟩ := List.pairwise_cons.1 secondAscending
          have notBelow := not_lt_of_lookup otherAbove same
          have notAbove := not_lt_of_lookup above fun key => (same key).symm
          have sameKey : entry.1 = other.1 :=
            String.le_antisymm (String.not_lt.1 notAbove) (String.not_lt.1 notBelow)
          have sameValue := same entry.1
          rw [lookup_cons_eq, if_pos rfl, lookup_cons_eq, if_pos sameKey] at sameValue
          have sameRest : rest = more := by
            apply inductionHypothesis restAscending moreAscending
            intro key
            by_cases isFirst : key = entry.1
            · rw [isFirst, lookup_of_below above, sameKey, lookup_of_below otherAbove]
            · have found := same key
              rw [lookup_cons_eq, if_neg isFirst, lookup_cons_eq,
                if_neg (sameKey ▸ isFirst)] at found
              exact found
          rw [sameRest, Prod.ext sameKey (Option.some.inj sameValue)]

/-- Of several entries with one key only the last is kept. -/
def latest : List (String × Value) → List (String × Value)
  | [] => []
  | entry :: rest =>
      if entry.1 ∈ rest.map Prod.fst then latest rest else entry :: latest rest

/-- The latest value of each key is found. -/
theorem lookup_latest (entries : List (String × Value)) (key : String) :
    (latest entries).reverse.lookup key = entries.reverse.lookup key := by
  induction entries with
  | nil => rfl
  | cons entry rest inductionHypothesis =>
      rw [List.reverse_cons, List.lookup_append]
      unfold latest
      split
      · next repeated =>
          rw [inductionHypothesis]
          by_cases same : key = entry.1
          · obtain ⟨later, member, sameKey⟩ := List.mem_map.1 repeated
            have found : (rest.reverse.lookup key).isSome = true := by
              rw [List.lookup_isSome_iff]
              exact ⟨later, List.mem_reverse.2 member, beq_iff_eq.2 (same.trans sameKey.symm)⟩
            rw [Option.or_of_isSome found]
          · rw [lookup_cons_eq, if_neg same, List.lookup_nil, Option.or_none]
      · rw [List.reverse_cons, List.lookup_append, inductionHypothesis]

end Keyed

namespace Tags

/-- The entries of tags make the same tags again. -/
theorem ofList_entries (tags : Tags) : ofList tags.entries = tags :=
  ext_entries (Keyed.ofList_of_ascending tags.ascending)

/-- The last pair with a key decides its value. -/
theorem get?_ofList (pairs : List (String × String)) (key : String) :
    (ofList pairs).get? key = pairs.reverse.lookup key :=
  Keyed.lookup_ofList pairs key

/-- Earlier pairs with a key that comes again do not count. -/
theorem ofList_latest (pairs : List (String × String)) :
    ofList (Keyed.latest pairs) = ofList pairs := by
  apply ext_entries
  apply Keyed.eq_of_lookup (ofList _).ascending (ofList pairs).ascending
  intro key
  change (Keyed.ofList _).lookup key = (Keyed.ofList _).lookup key
  rw [Keyed.lookup_ofList, Keyed.lookup_ofList, Keyed.lookup_latest]

/-- A filter hides the keys that fail the test. -/
theorem get?_filterKeys (tags : Tags) (test : String → Bool) (key : String) :
    (tags.filterKeys test).get? key = if test key then tags.get? key else none :=
  Keyed.lookup_filter tags.entries test key

/-- Only the keys that are tried decide what is found. -/
theorem firstPresent_congr {first second : Tags} {keys : List String}
    (same : ∀ key ∈ keys, first.get? key = second.get? key) :
    first.firstPresent keys = second.firstPresent keys := by
  induction keys with
  | nil => rfl
  | cons key rest inductionHypothesis =>
      have others := inductionHypothesis fun other member =>
        same other (List.mem_cons_of_mem key member)
      simp only [firstPresent] at others ⊢
      rw [List.findSome?_cons, List.findSome?_cons, same key List.mem_cons_self, others]

/-- A filter that passes all of the keys does not change which comes first. -/
theorem firstPresent_filterKeys (tags : Tags) {test : String → Bool} {keys : List String}
    (kept : ∀ key ∈ keys, test key = true) :
    (tags.filterKeys test).firstPresent keys = tags.firstPresent keys := by
  apply firstPresent_congr
  intro key member
  rw [get?_filterKeys, if_pos (kept key member)]

/-- The keys of lights are kept. -/
theorem keeps_lightKeys (property : String) : ∀ key ∈ lightKeys property, keeps key = true := by
  intro key member
  have seamark (rest : String) : keeps ("seamark:" ++ rest) = true := by
    rw [keeps, String.toList_append, List.isPrefixOf_iff_prefix.2 (List.prefix_append _ _),
      Bool.or_true]
  rcases List.mem_cons.1 member with rfl | numbered
  · rw [show "seamark:light:" = "seamark:" ++ "light:" from rfl, String.append_assoc]
    exact seamark _
  · rw [List.mem_singleton.1 numbered, show "seamark:light:1:" = "seamark:" ++ "light:1:" from rfl,
      String.append_assoc]
    exact seamark _

/-- The keys of names are kept. -/
theorem keeps_nameKeys : ∀ key ∈ nameKeys, keeps key = true := by decide

/-- Reduction keeps every attribute of a light. -/
theorem light?_filterKeys (tags : Tags) (property : String) :
    (tags.filterKeys keeps).light? property = tags.light? property :=
  firstPresent_filterKeys tags (keeps_lightKeys property)

theorem name?_filterKeys (tags : Tags) : (tags.filterKeys keeps).name? = tags.name? :=
  firstPresent_filterKeys tags keeps_nameKeys

end Tags

end LightList
