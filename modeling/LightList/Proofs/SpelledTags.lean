/-
This file says which texts spell a JSON value, and shows that tags mean the same as a value and as
the text of it.

A value is one that was read from a tree with distinct keys; its text is any text of that tree, or the
one that is printed compactly.
-/

import LightList.Json.TreeReader
import LightList.Proofs.AcceptedFloats
import LightList.Proofs.Json.TreeDecoding
import LightList.Proofs.PointIndexEntries

namespace LightList.Json

open Written

/-- A member and an entry have one key, and both hold the same text or none. -/
def SameText (member : String × Written) (entry : String × Json) : Prop :=
  member.1 = entry.1 ∧ member.2.text? = entry.2.text?.toOption

/-- Members that are the same texts are decoded alike. -/
theorem mapM_textMember? {members : List (String × Written)} {entries : List (String × Json)}
    (each : List.Forall₂ SameText members entries) :
    members.mapM textMember? = (textMembers entries).toOption := by
  induction each with
  | nil => rfl
  | @cons member entry rest others first _ inductionHypothesis =>
      obtain ⟨key, tree⟩ := member
      obtain ⟨entryKey, value⟩ := entry
      obtain ⟨rfl, sameText⟩ := first
      rw [List.mapM_cons, inductionHypothesis, textMember?, sameText, textMembers]
      cases value.text? with
      | error error => rfl
      | ok text => cases textMembers others <;> rfl

/-- Objects whose members are the same texts have the same tags. -/
theorem tags?_of_sameText {members : List (String × Written)} {entries : List (String × Json)}
    (each : List.Forall₂ SameText members entries) :
    (Written.object members).tags? = (Json.object entries).tags?.toOption := by
  rw [Written.tags?, Json.tags?, mapM_textMember? each]
  cases textMembers entries with
  | error error => rfl
  | ok pairs => exact congrArg some (Tags.ofList_latest pairs)

section Members

variable {entries : List (String × Json)} {pairs : List (String × String)}

def ofTexts (pairs : List (String × String)) : List (String × Json) :=
  pairs.map fun pair => (pair.1, .string pair.2)

/-- An object of texts has all of its members as tags. -/
theorem textMembers_ofTexts (pairs : List (String × String)) :
    textMembers (ofTexts pairs) = .ok pairs := by
  induction pairs with
  | nil => rfl
  | cons pair rest inductionHypothesis =>
      unfold ofTexts at inductionHypothesis ⊢
      rw [List.map_cons, textMembers, inductionHypothesis]
      rfl

/-- Only entries that hold texts are all texts. -/
theorem eq_ofTexts (read : textMembers entries = .ok pairs) : entries = ofTexts pairs := by
  induction entries generalizing pairs with
  | nil =>
      cases read
      rfl
  | cons entry rest inductionHypothesis =>
      obtain ⟨key, value⟩ := entry
      rw [textMembers] at read
      cases value with
      | string text =>
          cases others : textMembers rest with
          | error error =>
              rw [others] at read
              cases read
          | ok more =>
              rw [others] at read
              cases read
              rw [inductionHypothesis others]
              rfl
      | number number => cases number <;> cases read
      | _ => cases read

theorem place_ofTexts (key text : String) (pairs : List (String × String)) :
    Keyed.place key (.string text) (ofTexts pairs) = ofTexts (Keyed.place key text pairs) := by
  induction pairs with
  | nil => rfl
  | cons pair rest inductionHypothesis =>
      unfold ofTexts at inductionHypothesis ⊢
      rw [List.map_cons, Keyed.place_cons, Keyed.place_cons]
      split_ifs with below same
      · rfl
      · rfl
      · rw [inductionHypothesis]
        rfl

/-- Placing texts by their keys looks at no text. -/
theorem ofList_ofTexts (pairs : List (String × String)) :
    Keyed.ofList (ofTexts pairs) = ofTexts (Keyed.ofList pairs) := by
  have started (placed : List (String × String)) :
      (ofTexts pairs).foldl (fun placed entry => Keyed.place entry.1 entry.2 placed)
          (ofTexts placed) =
        ofTexts (pairs.foldl (fun placed entry => Keyed.place entry.1 entry.2 placed) placed) := by
    induction pairs generalizing placed with
    | nil => rfl
    | cons pair rest inductionHypothesis =>
        rw [List.foldl_cons, ← inductionHypothesis, ← place_ofTexts]
        rfl
  exact started []

/-- No entry is lost where all keys differ. -/
theorem mem_ofList (distinct : (entries.map Prod.fst).Nodup) {entry : String × Json}
    (member : entry ∈ entries) : entry ∈ Keyed.ofList entries := by
  have reversed : (entries.reverse.map Prod.fst).Nodup := by
    rw [List.map_reverse, List.nodup_reverse]
    exact distinct
  have found : (Keyed.ofList entries).lookup entry.1 = some entry.2 := by
    rw [Keyed.lookup_ofList, Keyed.lookup_eq_some_iff reversed, List.mem_reverse]
    exact member
  obtain ⟨front, back, same, _⟩ := List.lookup_eq_some_iff.1 found
  rw [same]
  exact List.mem_append_right front List.mem_cons_self

/-- Members that are all texts are an object of texts. -/
theorem exists_ofTexts (texts : ∀ entry ∈ entries, ∃ text, entry.2 = .string text) :
    ∃ pairs, entries = ofTexts pairs := by
  induction entries with
  | nil => exact ⟨[], rfl⟩
  | cons entry rest inductionHypothesis =>
      obtain ⟨first, others⟩ := List.forall_mem_cons.1 texts
      obtain ⟨text, isText⟩ := first
      obtain ⟨pairs, rfl⟩ := inductionHypothesis others
      obtain ⟨key, value⟩ := entry
      cases isText
      exact ⟨(key, text) :: pairs, rfl⟩

/-- Sorting the members by their keys does not change what tags they are. -/
theorem tags?_ofList (distinct : (entries.map Prod.fst).Nodup) :
    (Json.object (Keyed.ofList entries)).tags?.toOption = (Json.object entries).tags?.toOption := by
  rw [Json.tags?, Json.tags?]
  cases read : textMembers entries with
  | ok pairs =>
      rw [eq_ofTexts read, ofList_ofTexts, textMembers_ofTexts]
      exact congrArg some (Tags.ofList_entries (.ofList pairs))
  | error error =>
      cases sorted : textMembers (Keyed.ofList entries) with
      | error error => rfl
      | ok pairs =>
          have areTexts (entry : String × Json) (member : entry ∈ entries) :
              ∃ text, entry.2 = .string text := by
            have inside := mem_ofList distinct member
            rw [eq_ofTexts sorted] at inside
            obtain ⟨pair, _, rfl⟩ := List.mem_map.1 inside
            exact ⟨pair.2, rfl⟩
          obtain ⟨pairs, rfl⟩ := exists_ofTexts areTexts
          rw [textMembers_ofTexts] at read
          cases read

end Members

section Trees

variable {depth : Nat} {tree : Written} {value : Json}

/-- No two members of an object have one key. -/
def Written.HasDistinctKeys : Written → Prop
  | .object members => (members.map Prod.fst).Nodup
  | _ => True

/-- These are members whose values are all strings. -/
def stringMembers (pairs : List (String × String)) : List (String × Written) :=
  pairs.map fun pair => (pair.1, .string pair.2)

/-- Members are decoded as texts exactly if they are these. -/
theorem mapM_textMember?_eq_some_iff {members : List (String × Written)}
    {pairs : List (String × String)} :
    members.mapM textMember? = some pairs ↔ members = stringMembers pairs := by
  constructor
  · intro read
    induction members generalizing pairs with
    | nil =>
        cases read
        rfl
    | cons member rest inductionHypothesis =>
        rw [List.mapM_cons] at read
        obtain ⟨pair, first, read⟩ := Option.bind_eq_some_iff.1 read
        obtain ⟨others, further, same⟩ := Option.bind_eq_some_iff.1 read
        cases same
        obtain ⟨key, value⟩ := member
        cases value with
        | string text =>
            cases first
            rw [inductionHypothesis further]
            rfl
        | _ => cases first
  · rintro rfl
    induction pairs with
    | nil => rfl
    | cons pair rest inductionHypothesis =>
        unfold stringMembers at inductionHypothesis ⊢
        rw [List.map_cons, List.mapM_cons, inductionHypothesis]
        rfl

/-- An object of strings is decoded as tags, and a later key wins. -/
theorem tags?_stringMembers (pairs : List (String × String)) :
    (Written.object (stringMembers pairs)).tags? = some (.ofList pairs) := by
  rw [Written.tags?, mapM_textMember?_eq_some_iff.2 rfl]
  exact congrArg some (Tags.ofList_latest pairs)

/-- Nothing but such an object is tags. -/
theorem exists_stringMembers {tags : Tags} (found : tree.tags? = some tags) :
    ∃ pairs, tree = .object (stringMembers pairs) := by
  cases tree with
  | object members =>
      obtain ⟨pairs, read, _⟩ := Option.map_eq_some_iff.1 found
      exact ⟨pairs, congrArg Written.object (mapM_textMember?_eq_some_iff.1 read)⟩
  | _ => cases found

/-- A string is read as its text, and nothing else is. -/
theorem Written.IsRead.text? (isRead : IsRead tree value) : tree.text? = value.text?.toOption := by
  cases isRead <;> rfl

theorem sameText_of_mapM {members : List (String × Written)} {entries : List (String × Json)}
    (found : members.mapM (member? (tree? depth)) = some entries) :
    List.Forall₂ SameText members entries := by
  induction members generalizing entries with
  | nil =>
      cases found
      exact .nil
  | cons member rest inductionHypothesis =>
      rw [List.mapM_cons] at found
      obtain ⟨entry, first, found⟩ := Option.bind_eq_some_iff.1 found
      obtain ⟨others, further, found⟩ := Option.bind_eq_some_iff.1 found
      cases found
      obtain ⟨value, read, rfl⟩ := Option.map_eq_some_iff.1 first
      exact .cons ⟨rfl, (isRead_of_tree? read).text?⟩ (inductionHypothesis further)

/-- The tags that a tree is are those that its value is. -/
theorem Written.IsRead.tags? (isRead : IsRead tree value) (distinct : tree.HasDistinctKeys) :
    tree.tags? = value.tags?.toOption := by
  cases isRead with
  | @object _ members entries read =>
      have each := sameText_of_mapM read
      have sameKeys : members.map Prod.fst = entries.map Prod.fst := by
        clear read distinct
        induction each with
        | nil => rfl
        | cons first _ inductionHypothesis =>
            rw [List.map_cons, List.map_cons, first.1, inductionHypothesis]
      rw [tags?_of_sameText each, tags?_ofList]
      rw [← sameKeys]
      exact distinct
  | _ => rfl

end Trees

section Printed

open Text

/-- The tree is printed for the value, and both are the same text and the same tags, if any. -/
structure IsPrintedAs (value : Json) (tree : Written) : Prop where
  prints : Prints value tree
  text : tree.text? = value.text?.toOption
  tags : tree.tags? = value.tags?.toOption

/-- Every number is printed as something. -/
theorem exists_isPrintedAs_number (number : Number) :
    ∃ tree, IsPrintedAs (.number number) tree := by
  cases number with
  | integer value => exact ⟨.number (.ofInt value), prints_integer value, rfl, rfl⟩
  | float value =>
      cases isFinite : value.isFinite with
      | true =>
          obtain ⟨numeral, same⟩ := Json.exists_numeral_ofFloat isFinite
          refine ⟨.number numeral, ?_, rfl, rfl⟩
          rw [Prints, ← Json.ofFloat, ← same]
          exact .number numeral
      | false => exact ⟨.null, Json.prints_ofFloat_of_not isFinite, rfl, rfl⟩

/-- Every value is printed as a tree. -/
theorem exists_isPrintedAs : ∀ value : Json, ∃ tree, IsPrintedAs value tree
  | .null => ⟨.null, prints_null, rfl, rfl⟩
  | .boolean value => ⟨.boolean value, prints_boolean value, rfl, rfl⟩
  | .number value => exists_isPrintedAs_number value
  | .string text => ⟨.string text, prints_string text, rfl, rfl⟩
  | .array items => by
      have inner (item : Json) (member : item ∈ items) : ∃ tree, Prints item tree := by
        obtain ⟨tree, printed⟩ := exists_isPrintedAs item
        exact ⟨tree, printed.prints⟩
      obtain ⟨trees, each⟩ := exists_forall₂ inner
      exact ⟨.array trees, prints_array each, rfl, rfl⟩
  | .object members => by
      have inner (entry : String × Json) (member : entry ∈ members) :
          ∃ tree : String × Written, entry.1 = tree.1 ∧ IsPrintedAs entry.2 tree.2 := by
        obtain ⟨tree, printed⟩ := exists_isPrintedAs entry.2
        exact ⟨(entry.1, tree), rfl, printed⟩
      obtain ⟨trees, each⟩ := exists_forall₂ inner
      refine ⟨.object trees, prints_object ?_, rfl, tags?_of_sameText ?_⟩
      · exact each.imp fun _ _ both => ⟨both.1, both.2.prints⟩
      · exact each.flip.imp fun _ _ both => ⟨both.1.symm, both.2.text⟩
termination_by value => sizeOf value
decreasing_by
  · have smaller := List.sizeOf_lt_of_mem member
    simp only [array.sizeOf_spec]
    omega
  · have smaller := List.sizeOf_lt_of_mem member
    cases entry
    simp only [object.sizeOf_spec, Prod.mk.sizeOf_spec] at smaller ⊢
    omega

end Printed

end LightList.Json
