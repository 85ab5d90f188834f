/-
This file says which values are read as trees, and as which trees.

Only brackets are counted against the limit on the depth, and only the range of numbers is checked.
-/

import LightList.Json.TreeReader
import LightList.Proofs.Json.Decoding

namespace LightList.Json

namespace Reader

/-- This is the number that the numeral is read as, if it is in range. -/
def number? (numeral : Numeral) : Option Number :=
  (outcome? number numeral.bytes).map Prod.fst

/-- Where a numeral ends it is read as the number that its form decides. -/
theorem outcome?_number_delimited (numeral : Numeral) {rest : List UInt8}
    (delimited : Delimited rest) :
    outcome? number (numeral.bytes ++ rest) =
      (number? numeral).map fun value => (value, rest) := by
  obtain ⟨value?, read⟩ : ∃ value? : Option Number, ∀ rest, Delimited rest →
      outcome? number (numeral.bytes ++ rest) = value?.map fun value => (value, rest) := by
    rcases outcome?_number numeral with ⟨_, read⟩ | ⟨_, value?, read⟩
    · exact ⟨some (integer numeral.isNegative numeral.magnitude), read⟩
    · apply Exists.intro (value?.map Number.float)
      intro rest delimited
      rw [read rest delimited, Option.map_map]
      rfl
  have alone := read [] .nil
  rw [List.append_nil] at alone
  rw [read rest delimited, number?, alone, Option.map_map]
  cases value? with
  | none => rfl
  | some value => rfl

end Reader

namespace Written

/-- This is the tree of a value in which no more brackets are open at once than the depth says. -/
def tree? (depth : Nat) : Written → Option Json
  | .null => some .null
  | .boolean value => some (.boolean value)
  | .number numeral => (Reader.number? numeral).map .number
  | .string text => some (.string text)
  | .array items =>
      match depth with
      | 0 => none
      | inner + 1 => (items.mapM (tree? inner)).map .array
  | .object members =>
      match depth with
      | 0 => none
      | inner + 1 =>
          (members.mapM (member? (tree? inner))).map fun members =>
            .object (Keyed.ofList members)

/-- A value is of the kind of the tree from which it is read, and an object has its members. -/
inductive IsRead : Written → Json → Prop where
  | null : IsRead .null .null
  | boolean (value : Bool) : IsRead (.boolean value) (.boolean value)
  | number (numeral : Numeral) (value : Number) : IsRead (.number numeral) (.number value)
  | string (text : String) : IsRead (.string text) (.string text)
  | array (items : List Written) (values : List Json) : IsRead (.array items) (.array values)
  | object {depth : Nat} {members : List (String × Written)} {entries : List (String × Json)} :
      members.mapM (member? (tree? depth)) = some entries →
        IsRead (.object members) (.object (Keyed.ofList entries))

/-- A tree that is decoded within a depth is read as this value. -/
theorem isRead_of_tree? {depth : Nat} {tree : Written} {value : Json}
    (found : tree? depth tree = some value) : IsRead tree value := by
  cases tree with
  | null =>
      rw [tree?] at found
      cases found
      exact .null
  | boolean flag =>
      rw [tree?] at found
      cases found
      exact .boolean flag
  | number numeral =>
      rw [tree?] at found
      obtain ⟨number, _, rfl⟩ := Option.map_eq_some_iff.1 found
      exact .number numeral number
  | string text =>
      rw [tree?] at found
      cases found
      exact .string text
  | array items =>
      cases depth with
      | zero => cases found
      | succ inner =>
          obtain ⟨values, _, rfl⟩ := Option.map_eq_some_iff.1 found
          exact .array items values
  | object members =>
      cases depth with
      | zero => cases found
      | succ inner =>
          obtain ⟨entries, read, rfl⟩ := Option.map_eq_some_iff.1 found
          exact .object read

end Written

namespace Reader

open Written

section Brackets

variable {Value : Type} {inner rest : List UInt8}

/-- An array is read up to its bracket when each of its items is. -/
theorem outcome?_enclosed_items {item : Reader Value} {item? : Written → Option Value}
    (reads : Reads item item?) {items : List Written} (writes : WritesList Writes true items inner)
    (change : List Value → Json) :
    outcome? (enclosed (change <$> Reader.items item) closeList) (inner ++ closeBracket :: rest) =
      (items.mapM item?).map fun values => (change values, rest) := by
  have itemsRead : outcome? (Reader.items item) (inner ++ closeBracket :: rest) =
      (items.mapM item?).map fun values => (values, closeBracket :: rest) :=
    outcome?_items (fun _ _ writes => writes.opens)
      (fun item bytes rest writesItem delimited =>
        reads item bytes [] rest writesItem rfl delimited) writes
  have closed : outcome? closeList (closeBracket :: rest) = some ((), rest) := rfl
  rw [outcome?_enclosed, outcome?_map, itemsRead]
  cases items.mapM item? with
  | none => rfl
  | some values => simp [closed]

/-- An object is read up to its brace when each of its values is. -/
theorem outcome?_enclosed_entries {value : Reader Value} {value? : Written → Option Value}
    (reads : Reads value value?) {members : List (String × Written)}
    (writes : WritesList (WritesMember Writes) true members inner)
    (change : List (String × Value) → Json) :
    outcome? (enclosed (change <$> entries value) closeObject) (inner ++ closeBrace :: rest) =
      (members.mapM (member? value?)).map fun pairs => (change pairs, rest) := by
  rw [outcome?_enclosed, outcome?_map, outcome?_entries reads writes]
  cases members.mapM (member? value?) with
  | none => rfl
  | some pairs =>
      simp only [Option.map_some, Option.bind_some]
      rw [outcome?_closeObject]
      rfl

end Brackets

section Trees

variable {core gap rest : List UInt8} (depth : Nat)

/-- A name is read letter by letter and stands for its value. -/
theorem outcome?_name (first : UInt8) (name : List UInt8) (value : Json) :
    outcome?
        (do
          skipByte
          letters name
          return value)
        (first :: (name ++ rest)) = some (value, rest) := by
  rw [outcome?_bind, outcome?_skipByte, Option.bind_some, List.tail_cons, outcome?_bind,
    outcome?_letters]
  rfl

theorem outcome?_tree_null (isGap : IsGap gap) :
    outcome? (Reader.tree depth) (gap ++ (nullBytes ++ rest)) = some (.null, rest) := by
  rw [Reader.tree.eq_def, nullBytes, List.cons_append, outcome?_token isGap rfl]
  exact outcome?_name letterN [letterU, 0x6c, 0x6c] .null

theorem outcome?_tree_boolean (value : Bool) (isGap : IsGap gap) :
    outcome? (Reader.tree depth) (gap ++ (booleanBytes value ++ rest)) =
      some (.boolean value, rest) := by
  cases value with
  | false =>
      rw [Reader.tree.eq_def, booleanBytes, if_neg Bool.false_ne_true, List.cons_append,
        outcome?_token isGap rfl]
      exact outcome?_name letterF [0x61, 0x6c, 0x73, 0x65] (.boolean false)
  | true =>
      rw [Reader.tree.eq_def, booleanBytes, if_pos rfl, List.cons_append,
        outcome?_token isGap rfl]
      exact outcome?_name letterT [letterR, letterU, 0x65] (.boolean true)

/-- A number is told by its first byte, whatever the depth. -/
theorem outcome?_tree_number (numeral : Numeral) (isGap : IsGap gap)
    (delimited : Delimited rest) :
    outcome? (Reader.tree depth) (gap ++ (numeral.bytes ++ rest)) =
      (number? numeral).map fun value => (.number value, rest) := by
  obtain ⟨byte, more, written, begins⟩ := numeral.bytes_eq_cons
  have read := outcome?_number_delimited numeral delimited
  have differs {other : UInt8} (outside : other ≠ minus ∧ isDigit other = false) :
      byte ≠ other := by
    rintro rfl
    rcases begins with isMinus | digit
    · exact outside.1 isMinus
    · rw [outside.2] at digit
      cases digit
  have solid : isBlank byte = false := by
    rcases begins with rfl | digit
    · rfl
    · exact isBlank_of_isDigit digit
  rw [written, List.cons_append] at read ⊢
  rw [Reader.tree.eq_def, outcome?_token isGap solid]
  dsimp only
  rw [if_neg (differs (by decide)), if_neg (differs (by decide)), if_neg (differs (by decide)),
    if_pos begins, outcome?_map, read, Option.map_map]
  rfl

theorem outcome?_tree_string {text : String} {bytes : List UInt8} (writes : WritesText text bytes)
    (isGap : IsGap gap) :
    outcome? (Reader.tree depth) (gap ++ (quote :: (bytes ++ [quote]) ++ rest)) =
      some (.string text, rest) := by
  have notBracket : quote ≠ openBracket := by decide
  have notBrace : quote ≠ openBrace := by decide
  rw [List.cons_append, List.append_assoc, List.singleton_append, Reader.tree.eq_def,
    outcome?_token isGap rfl]
  dsimp only
  rw [if_neg notBracket, if_neg notBrace, if_pos rfl, outcome?_bind, outcome?_skipByte,
    Option.bind_some, List.tail_cons, outcome?_map, outcome?_text writes]
  rfl

end Trees

/-- Each bracket lowers the depth, and only brackets look at it. -/
theorem reads_tree (depth : Nat) : Reads (Reader.tree depth) (tree? depth) := by
  intro tree core gap rest writes isGap delimited
  cases writes with
  | null => rw [outcome?_tree_null depth isGap, tree?, Option.map_some]
  | boolean value => rw [outcome?_tree_boolean depth value isGap, tree?, Option.map_some]
  | number numeral =>
      rw [outcome?_tree_number depth numeral isGap delimited, tree?, Option.map_map]
      rfl
  | string writesText =>
      rw [outcome?_tree_string depth writesText isGap, tree?, Option.map_some]
  | array writesItems =>
      simp only [List.cons_append, List.append_assoc, List.nil_append]
      cases depth with
      | zero =>
          rw [Reader.tree, outcome?_token isGap rfl]
          rfl
      | succ inner =>
          rw [Reader.tree, outcome?_token isGap rfl]
          dsimp only
          rw [if_pos rfl, outcome?_bind, outcome?_skipByte, Option.bind_some, List.tail_cons,
            outcome?_enclosed_items (reads_tree inner) writesItems, tree?, Option.map_map]
          rfl
  | object writesMembers =>
      have notBracket : openBrace ≠ openBracket := by decide
      simp only [List.cons_append, List.append_assoc, List.nil_append]
      cases depth with
      | zero =>
          rw [Reader.tree, outcome?_token isGap rfl]
          rfl
      | succ inner =>
          rw [Reader.tree, outcome?_token isGap rfl]
          dsimp only
          rw [if_neg notBracket, if_pos rfl, outcome?_bind, outcome?_skipByte, Option.bind_some,
            List.tail_cons, outcome?_enclosed_entries (reads_tree inner) writesMembers, tree?,
            Option.map_map]
          rfl

end Reader

end LightList.Json
