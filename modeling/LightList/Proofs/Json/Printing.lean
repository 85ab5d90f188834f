/-
This file shows that what is printed compactly is written by the rules for values.
-/

import LightList.Json.Printer
import LightList.Proofs.Json.Decoding
import LightList.Proofs.TextBytes
import Mathlib.Data.List.Forall2
import Mathlib.Tactic.SplitIfs

namespace LightList.Json

open Text

/-- A hexadecimal digit is one byte and is read with its value. -/
theorem hexValue?_hexDigit (value : Nat) :
    String.utf8EncodeChar (hexDigit value) = [UInt8.ofNat (hexDigit value).toNat] ∧
      hexValue? (UInt8.ofNat (hexDigit value).toNat) = some (value % 16) := by
  have table : ∀ value < 16,
      String.utf8EncodeChar (Nat.digitChar value) = [UInt8.ofNat (Nat.digitChar value).toNat] ∧
        hexValue? (UInt8.ofNat (Nat.digitChar value).toNat) = some value := by
    decide
  exact table (value % 16) (Nat.mod_lt value (by decide))

/-- A control character is printed by its code. -/
theorem writesChar_control {character : Char} (control : character.toNat < 32) :
    WritesChar character
      (bytes ("\\u00" ++ String.ofList [hexDigit (character.toNat / 16), hexDigit character.toNat])) := by
  obtain ⟨highBytes, highValue⟩ := hexValue?_hexDigit (character.toNat / 16)
  obtain ⟨lowBytes, lowValue⟩ := hexValue?_hexDigit character.toNat
  have code : ((0 * 16 + 0) * 16 + character.toNat / 16 % 16) * 16 + character.toNat % 16 =
      character.toNat := by
    omega
  have start : bytes "\\u00" = [backslash, letterU, zero, zero] := bytes_eq _
  have digits :
      bytes (String.ofList [hexDigit (character.toNat / 16), hexDigit character.toNat]) =
        [UInt8.ofNat (hexDigit (character.toNat / 16)).toNat,
          UInt8.ofNat (hexDigit character.toNat).toNat] := by
    rw [bytes_ofList, List.flatMap_cons, List.flatMap_singleton, highBytes, lowBytes,
      List.singleton_append]
  have writes : WritesCode
      (((0 * 16 + 0) * 16 + character.toNat / 16 % 16) * 16 + character.toNat % 16)
      [zero, zero, UInt8.ofNat (hexDigit (character.toNat / 16)).toNat,
        UInt8.ofNat (hexDigit character.toNat).toNat] := .digits rfl rfl highValue lowValue
  rw [code] at writes
  rw [bytes_append, start, digits]
  exact .code writes

/-- A printed character writes itself, escaped where it must be. -/
theorem writesChar_escaped (character : Char) :
    WritesChar character (bytes (escapedChar character)) := by
  have listed {letter : UInt8} {text : String} (encoded : bytes text = [backslash, letter])
      (inTable : (letter, character) ∈ letterEscapes) : WritesChar character (bytes text) := by
    rw [encoded]
    exact .letter inTable
  unfold escapedChar
  split_ifs with isQuote isBackslash isBackspace isFeed isLine isReturn isTab isControl
  · subst isQuote
    exact listed (bytes_eq _) (by decide)
  · subst isBackslash
    exact listed (bytes_eq _) (by decide)
  · subst isBackspace
    exact listed (bytes_eq _) (by decide)
  · subst isFeed
    exact listed (bytes_eq _) (by decide)
  · subst isLine
    exact listed (bytes_eq _) (by decide)
  · subst isReturn
    exact listed (bytes_eq _) (by decide)
  · subst isTab
    exact listed (bytes_eq _) (by decide)
  · exact writesChar_control isControl
  · have alone : bytes character.toString = String.utf8EncodeChar character := by
      rw [bytes_eq, Char.toString, String.toList_singleton, List.flatMap_singleton]
    rw [alone]
    exact .plain (Nat.le_of_not_lt isControl) isQuote isBackslash

/-- A printed string stands between quotes. -/
theorem exists_quoted (text : String) :
    ∃ inner, bytes (quoted text) = quote :: (inner ++ [quote]) ∧ WritesText text inner := by
  have writes (characters : List Char) :
      WritesChars characters (characters.flatMap fun character => bytes (escapedChar character)) := by
    induction characters with
    | nil => exact .nil
    | cons character rest inductionHypothesis =>
        rw [List.flatMap_cons]
        exact .cons (writesChar_escaped character) inductionHypothesis
  have mark : bytes "\"" = [quote] := bytes_eq _
  refine ⟨_, ?_, writes text.toList⟩
  rw [quoted, bytes_append, bytes_append, mark, bytes_join, List.flatMap_map,
    List.singleton_append, List.cons_append]

/-- Where every item has a partner, they are partners in a row. -/
theorem exists_forall₂ {Item Partner : Type} {relates : Item → Partner → Prop} {items : List Item}
    (each : ∀ item ∈ items, ∃ partner, relates item partner) :
    ∃ partners, List.Forall₂ relates items partners := by
  induction items with
  | nil => exact ⟨[], .nil⟩
  | cons item rest inductionHypothesis =>
      obtain ⟨first, others⟩ := List.forall_mem_cons.1 each
      obtain ⟨partner, related⟩ := first
      obtain ⟨partners, further⟩ := inductionHypothesis others
      exact ⟨partner :: partners, .cons related further⟩

/-- Where every value has a partner that is read as it, the partners are read as the values. -/
theorem exists_mapM_of_forall₂ {Item Partner Value : Type} {relates : Item → Partner → Prop}
    {value? : Partner → Option Value} {items : List Item} {values : List Value}
    (each : List.Forall₂
      (fun item value => ∃ partner, relates item partner ∧ value? partner = some value)
      items values) :
    ∃ partners, List.Forall₂ relates items partners ∧ partners.mapM value? = some values := by
  induction each with
  | nil => exact ⟨[], .nil, rfl⟩
  | cons first _ inductionHypothesis =>
      obtain ⟨partner, related, found⟩ := first
      obtain ⟨partners, further, others⟩ := inductionHypothesis
      apply Exists.intro (partner :: partners)
      apply And.intro (.cons related further)
      rw [List.mapM_cons, found, others]
      rfl

/-- The value is printed as one that the tree stands for. -/
def Prints (value : Json) (tree : Written) : Prop := tree.Writes (bytes value.compact)

theorem prints_null : Prints .null .null := by
  have letters : bytes "null" = Written.nullBytes := bytes_eq _
  rw [Prints, compact, letters]
  exact .null

theorem prints_boolean (value : Bool) : Prints (.boolean value) (.boolean value) := by
  have letters : bytes (if value then "true" else "false") = Written.booleanBytes value := by
    cases value <;> exact bytes_eq _
  rw [Prints, compact, letters]
  exact .boolean value

/-- Every string is printed as a string with the same characters. -/
theorem prints_string (text : String) : Prints (.string text) (.string text) := by
  obtain ⟨inner, printed, writes⟩ := exists_quoted text
  rw [Prints, compact, printed]
  exact .string writes

/-- A key is printed before its value with a colon between them, and perhaps blanks. -/
theorem writes_spacedMember (key : String) {tree : Written} {gap core : List UInt8}
    (isGap : IsGap gap) (writes : tree.Writes core) :
    WritesMember Written.Writes (key, tree) (bytes (quoted key ++ ":") ++ (gap ++ core)) := by
  obtain ⟨inner, printed, writesKey⟩ := exists_quoted key
  have mark : bytes ":" = [colon] := bytes_eq _
  have member : WritesMember Written.Writes (key, tree)
      (quote :: (inner ++ quote :: ([] ++ colon :: (gap ++ core)))) :=
    .pair writesKey rfl isGap writes
  have same : bytes (quoted key ++ ":") ++ (gap ++ core) =
      quote :: (inner ++ quote :: ([] ++ colon :: (gap ++ core))) := by
    rw [bytes_append, printed, mark]
    simp
  rw [same]
  exact member

/-- A member is its key, a colon and its value. -/
theorem writes_member (key : String) {tree : Written} {core : List UInt8}
    (writes : tree.Writes core) :
    WritesMember Written.Writes (key, tree) (bytes (quoted key ++ ":") ++ core) :=
  have noGap : IsGap [] := rfl
  writes_spacedMember key noGap writes

section Items

variable {Item : Type} {Writes : Item → List UInt8 → Prop} {items : List Item}
  {cores : List (List UInt8)} {gap closing : List UInt8}

/-- Behind the first item each one stands after a comma and a gap. -/
def furtherBytes (gap : List UInt8) (cores : List (List UInt8)) : List UInt8 :=
  cores.flatMap fun core => comma :: (gap ++ core)

/-- Between two brackets a gap stands before each item and another one behind the last. -/
def innerBytes (gap closing : List UInt8) : List (List UInt8) → List UInt8
  | [] => []
  | core :: others => gap ++ (core ++ (furtherBytes gap others ++ closing))

/-- Further items stand behind commas. -/
theorem writes_further (isGap : IsGap gap) (isClosing : IsGap closing)
    (each : List.Forall₂ Writes items cores) :
    WritesList Writes false items (furtherBytes gap cores ++ closing) := by
  induction each with
  | nil => exact .done isClosing
  | @cons item core rest others writes _ inductionHypothesis =>
      have same : furtherBytes gap (core :: others) ++ closing =
          [] ++ comma :: (gap ++ (core ++ (furtherBytes gap others ++ closing))) := by
        simp [furtherBytes]
      rw [same]
      exact .next rfl isGap writes inductionHypothesis

/-- Items are separated by commas, with the same gap around each. -/
theorem writes_inner (isGap : IsGap gap) (isClosing : IsGap closing)
    (each : List.Forall₂ Writes items cores) :
    WritesList Writes true items (innerBytes gap closing cores) := by
  cases each with
  | nil => exact .done rfl
  | cons writes further => exact .first isGap writes (writes_further isGap isClosing further)

end Items

section Brackets

theorem bytes_compactItems (items : List Json) :
    bytes (compactItems items) = furtherBytes [] (items.map fun item => bytes item.compact) := by
  have mark : bytes "," = [comma] := bytes_eq _
  induction items with
  | nil =>
      rw [compactItems, bytes_eq]
      rfl
  | cons item rest inductionHypothesis =>
      simp [compactItems, bytes_append, mark, inductionHypothesis, furtherBytes]

/-- A member stands on its own without any blank. -/
def compactMember (member : String × Json) : List UInt8 :=
  bytes (quoted member.1 ++ ":") ++ bytes member.2.compact

theorem bytes_compactMembers (members : List (String × Json)) :
    bytes (compactMembers members) = furtherBytes [] (members.map compactMember) := by
  have mark : bytes "," = [comma] := bytes_eq _
  induction members with
  | nil =>
      rw [compactMembers, bytes_eq]
      rfl
  | cons member rest inductionHypothesis =>
      simp [compactMembers, compactMember, bytes_append, mark, inductionHypothesis, furtherBytes]

/-- A compact array has no gaps. -/
theorem bytes_compactArray (items : List Json) :
    bytes (Json.array items).compact =
      openBracket :: (innerBytes [] [] (items.map fun item => bytes item.compact) ++
        [closeBracket]) := by
  have opening : bytes "[" = [openBracket] := bytes_eq _
  have closing : bytes "]" = [closeBracket] := bytes_eq _
  cases items with
  | nil =>
      rw [compact, bytes_eq]
      rfl
  | cons item rest => simp [compact, bytes_append, bytes_compactItems, opening, closing, innerBytes]

/-- A compact object has no gaps. -/
theorem bytes_compactObject (members : List (String × Json)) :
    bytes (Json.object members).compact =
      openBrace :: (innerBytes [] [] (members.map compactMember) ++ [closeBrace]) := by
  have opening : bytes "\x7b" = [openBrace] := bytes_eq _
  have closing : bytes "\x7d" = [closeBrace] := bytes_eq _
  cases members with
  | nil =>
      rw [compact, bytes_eq]
      rfl
  | cons member rest =>
      simp [compact, compactMember, bytes_append, bytes_compactMembers, opening, closing, innerBytes]

/-- An object is printed member by member. -/
theorem prints_object {members : List (String × Json)} {trees : List (String × Written)}
    (each : List.Forall₂ (fun member tree => member.1 = tree.1 ∧ Prints member.2 tree.2)
      members trees) : Prints (.object members) (.object trees) := by
  have noGap : IsGap [] := rfl
  rw [Prints, bytes_compactObject]
  apply Written.Writes.object
  apply writes_inner noGap noGap
  rw [List.forall₂_map_right_iff]
  apply each.flip.imp
  rintro ⟨key, tree⟩ ⟨_, value⟩ ⟨rfl, prints⟩
  exact writes_member _ prints

/-- A list is printed item by item. -/
theorem prints_array {items : List Json} {trees : List Written}
    (each : List.Forall₂ Prints items trees) : Prints (.array items) (.array trees) := by
  have noGap : IsGap [] := rfl
  rw [Prints, bytes_compactArray]
  apply Written.Writes.array
  apply writes_inner noGap noGap
  rw [List.forall₂_map_right_iff]
  exact each.flip

end Brackets

/-- A value without blanks around it is a document. -/
theorem Written.Writes.writesDocument {tree : Written} {core : List UInt8}
    (writes : tree.Writes core) : tree.WritesDocument core := by
  have alone : tree.WritesDocument ([] ++ (core ++ [])) := .around rfl writes rfl
  rw [List.nil_append, List.append_nil] at alone
  exact alone

/-- What is printed is a document of its own. -/
theorem Prints.writesDocument {value : Json} {tree : Written} (prints : Prints value tree) :
    tree.WritesDocument (bytes value.compact) :=
  Written.Writes.writesDocument prints

end LightList.Json
