/-
This file shows that what is printed with indentation is read again, and as which tree.

The indentation grows with every bracket, but all that a reader sees of it are blanks around the
items.
-/

import LightList.Proofs.AcceptedFloats
import LightList.Proofs.Json.TreeDecoding

namespace LightList.Json

open Text

/-- A new line begins with the indentation. -/
def lineStart (depth : Nat) : List UInt8 := bytes "\n" ++ bytes (indentation depth)

/-- The break before a line and its indentation are a gap. -/
theorem isGap_lineStart (depth : Nat) : IsGap (lineStart depth) := by
  have newline : (bytes "\n").all isBlank = true := by
    rw [bytes_eq]
    rfl
  have isSpace : (String.utf8EncodeChar ' ').all isBlank = true := by decide
  rw [IsGap, lineStart, List.all_append, newline, indentation, bytes_ofList, List.all_flatMap,
    List.all_replicate, isSpace, ite_self, Bool.and_true]

/-- A value starts on a line of this depth. -/
def indentedBytes (depth : Nat) (value : Json) : List UInt8 :=
  (value.prettyPieces depth).flatMap bytes

/-- A member has a blank behind its colon. -/
def memberBytes (depth : Nat) (member : String × Json) : List UInt8 :=
  bytes (quoted member.1 ++ ":") ++ (bytes " " ++ indentedBytes depth member.2)

section Pieces

variable (depth : Nat)

theorem bytes_pretty (value : Json) : bytes value.pretty = indentedBytes 0 value := bytes_join _

theorem bytes_nextLine : bytes ",\n" = comma :: bytes "\n" := by
  rw [bytes_eq, bytes_eq]
  rfl

theorem bytes_colonAndBlank : bytes ": " = bytes ":" ++ bytes " " := by
  rw [bytes_eq, bytes_eq, bytes_eq]
  rfl

/-- Each further item stands on a line of its own. -/
theorem bytes_prettyItems (items : List Json) :
    (prettyItems depth items).flatMap bytes =
      furtherBytes (lineStart depth) (items.map (indentedBytes depth)) := by
  induction items with
  | nil => rfl
  | cons item rest inductionHypothesis =>
      simp [prettyItems, inductionHypothesis, furtherBytes, lineStart, indentedBytes,
        bytes_nextLine]

/-- Each further member stands on a line of its own. -/
theorem bytes_prettyMembers (members : List (String × Json)) :
    (prettyMembers depth members).flatMap bytes =
      furtherBytes (lineStart depth) (members.map (memberBytes depth)) := by
  induction members with
  | nil => rfl
  | cons member rest inductionHypothesis =>
      simp [prettyMembers, inductionHypothesis, furtherBytes, lineStart, indentedBytes,
        memberBytes, bytes_nextLine, bytes_colonAndBlank, bytes_append]

/-- An array has its brackets on their own lines, and its items one step further in. -/
theorem indentedBytes_array (items : List Json) :
    indentedBytes depth (.array items) =
      openBracket :: (innerBytes (lineStart (depth + 1)) (lineStart depth)
        (items.map (indentedBytes (depth + 1))) ++ [closeBracket]) := by
  have opening : bytes "[" = [openBracket] := bytes_eq _
  have closing : bytes "]" = [closeBracket] := bytes_eq _
  cases items with
  | nil =>
      have both : bytes "[]" = [openBracket, closeBracket] := bytes_eq _
      rw [indentedBytes, prettyPieces, List.flatMap_singleton, both]
      rfl
  | cons item rest =>
      simp [indentedBytes, prettyPieces, innerBytes, lineStart, bytes_prettyItems, opening, closing]

/-- An object has its braces on their own lines, and its members one step further in. -/
theorem indentedBytes_object (members : List (String × Json)) :
    indentedBytes depth (.object members) =
      openBrace :: (innerBytes (lineStart (depth + 1)) (lineStart depth)
        (members.map (memberBytes (depth + 1))) ++ [closeBrace]) := by
  have opening : bytes "\x7b" = [openBrace] := bytes_eq _
  have closing : bytes "\x7d" = [closeBrace] := bytes_eq _
  cases members with
  | nil =>
      have both : bytes "\x7b\x7d" = [openBrace, closeBrace] := bytes_eq _
      rw [indentedBytes, prettyPieces, List.flatMap_singleton, both]
      rfl
  | cons member rest =>
      simp [indentedBytes, memberBytes, prettyPieces, innerBytes, lineStart, bytes_prettyMembers,
        bytes_colonAndBlank, bytes_append, opening, closing]

end Pieces

/-- The value is printed, on a line of any depth, as one that the tree stands for. -/
def PrintsIndented (value : Json) (tree : Written) : Prop :=
  ∀ depth, tree.Writes (indentedBytes depth value)

/-- What has no brackets is printed alike in both ways. -/
theorem Prints.indented {value : Json} {tree : Written} (prints : Prints value tree)
    (alone : ∀ depth, value.prettyPieces depth = [value.compact]) : PrintsIndented value tree := by
  intro depth
  rw [indentedBytes, alone, List.flatMap_singleton]
  exact prints

/-- An indented array stands for the array of what its items stand for. -/
theorem printsIndented_array {items : List Json} {trees : List Written}
    (each : List.Forall₂ PrintsIndented items trees) :
    PrintsIndented (.array items) (.array trees) := by
  intro depth
  rw [indentedBytes_array]
  apply Written.Writes.array
  apply writes_inner (isGap_lineStart _) (isGap_lineStart _)
  rw [List.forall₂_map_right_iff]
  exact each.flip.imp fun _ _ prints => prints (depth + 1)

/-- An indented object stands for the object of what its members stand for. -/
theorem printsIndented_object {members : List (String × Json)} {trees : List (String × Written)}
    (each : List.Forall₂ (fun member tree => member.1 = tree.1 ∧ PrintsIndented member.2 tree.2)
      members trees) : PrintsIndented (.object members) (.object trees) := by
  have blank : IsGap (bytes " ") := by
    rw [IsGap, bytes_eq]
    rfl
  intro depth
  rw [indentedBytes_object]
  apply Written.Writes.object
  apply writes_inner (isGap_lineStart _) (isGap_lineStart _)
  rw [List.forall₂_map_right_iff]
  apply each.flip.imp
  rintro ⟨key, tree⟩ ⟨_, value⟩ ⟨rfl, prints⟩
  exact writes_spacedMember _ blank (prints (depth + 1))

section Numbers

/-- An identifier is read as the integer that it is. -/
theorem number?_ofInt (id : Int64) :
    Reader.number? (.ofInt id.toInt) = some (.integer id.toInt) := by
  have power : Nat.pow 2 63 = 9223372036854775808 := rfl
  have lowest : Int64.minValue.toInt = -9223372036854775808 := rfl
  have above := id.minValue_le_toInt
  rcases Reader.outcome?_number (.ofInt id.toInt) with ⟨_, read⟩ | ⟨large, _⟩
  · have alone := read [] .nil
    rw [List.append_nil, Numeral.magnitude_ofInt] at alone
    rw [Reader.number?, alone, Option.map_some, Numeral.ofInt, Reader.integer]
    by_cases negative : id.toInt < 0
    · have value : -(id.toInt.natAbs : Int) = id.toInt := by omega
      rw [if_pos (decide_eq_true negative), if_neg (by omega), value]
    · have value : (id.toInt.natAbs : Int) = id.toInt := by omega
      rw [decide_eq_false negative, if_neg Bool.false_ne_true, value]
  · exact absurd (large ⟨rfl, rfl⟩) (Nat.not_le.2 (magnitude_ofInt_lt id))

/-- A number that is no integer is read as the float that it is. -/
theorem number?_of_notIntegral {numeral : Numeral} (notIntegral : ¬ numeral.IsIntegral) :
    Reader.number? numeral = (Reader.float? numeral).map .float := by
  rcases Reader.outcome?_number numeral with ⟨isIntegral, _⟩ | ⟨_, value?, read⟩
  · exact (notIntegral isIntegral).elim
  · have noGap : IsGap [] := rfl
    have opened : Reader.outcome? Reader.float ([] ++ (numeral.bytes ++ [])) = _ :=
      Reader.outcome?_numberAs _ _ numeral noGap
    have alone := read [] .nil
    rw [alone, List.nil_append, List.append_nil] at opened
    rw [List.append_nil] at alone
    rw [Reader.number?, alone, Reader.float?, opened]
    cases value? with
    | none => rfl
    | some value => rfl

end Numbers

/-- A finite float is read as the number that its text is, and any other one as null. -/
inductive IsReadFloat (value : Float) : Json → Prop where
  | finite {read : Float} :
      value.isFinite = true → reread? value = some read → IsReadFloat value (.ofFloat read)
  | infinite : value.isFinite = false → IsReadFloat value .null

/-- Every float is read back as some value, or as null when it is no number. -/
theorem exists_isReadFloat (value : Float) : ∃ read, IsReadFloat value read := by
  cases isFinite : value.isFinite with
  | false => exact ⟨.null, .infinite isFinite⟩
  | true =>
      have found := isSome_reread? value
      rw [isFinite] at found
      obtain ⟨read, reread⟩ := Option.isSome_iff_exists.1 found
      exact ⟨.ofFloat read, .finite isFinite reread⟩

/-- The text of the value is read as the other one, if so many brackets may be open at once. -/
def IsReadBack (depth : Nat) (value read : Json) : Prop :=
  ∃ tree, PrintsIndented value tree ∧ Written.tree? depth tree = some read

namespace IsReadBack

variable (depth : Nat)

theorem null : IsReadBack depth .null .null :=
  ⟨.null, prints_null.indented fun _ => rfl, by rw [Written.tree?]⟩

theorem string (text : String) : IsReadBack depth (.string text) (.string text) :=
  ⟨.string text, (prints_string text).indented fun _ => rfl, by rw [Written.tree?]⟩

theorem ofText? (text? : Option String) : IsReadBack depth (.ofText? text?) (.ofText? text?) := by
  cases text? with
  | none => exact null depth
  | some text => exact string depth text

theorem ofId (id : Int64) : IsReadBack depth (.ofId id) (.ofId id) := by
  refine ⟨.number (.ofInt id.toInt), (prints_integer id.toInt).indented fun _ => rfl, ?_⟩
  rw [Written.tree?, number?_ofInt]
  rfl

variable {depth}

/-- A float is read back as what its digits stand for. -/
theorem ofFloat {value : Float} {read : Json} (isRead : IsReadFloat value read) :
    IsReadBack depth (.ofFloat value) read := by
  cases isRead with
  | infinite infinite =>
      refine ⟨.null, (prints_ofFloat_of_not infinite).indented fun _ => rfl, ?_⟩
      rw [Written.tree?]
  | finite _ found =>
      obtain ⟨numeral, notIntegral, prints, valued⟩ := exists_numeral_reread found
      refine ⟨.number numeral, prints.indented fun _ => rfl, ?_⟩
      rw [Written.tree?, number?_of_notIntegral notIntegral, valued]
      rfl

/-- An array is read back item by item, one level deeper. -/
theorem array {items reads : List Json} (each : List.Forall₂ (IsReadBack depth) items reads) :
    IsReadBack (depth + 1) (.array items) (.array reads) := by
  obtain ⟨trees, prints, found⟩ := exists_mapM_of_forall₂ each
  refine ⟨.array trees, printsIndented_array prints, ?_⟩
  rw [Written.tree?, found]
  rfl

/-- Of several members with one key the last is read, and they are read in the order of the keys. -/
theorem object {members reads : List (String × Json)}
    (each : List.Forall₂ (fun member read => member.1 = read.1 ∧ IsReadBack depth member.2 read.2)
      members reads) :
    IsReadBack (depth + 1) (.object members) (.object (Keyed.ofList reads)) := by
  have paired : List.Forall₂ (fun member read => ∃ tree : String × Written,
      (member.1 = tree.1 ∧ PrintsIndented member.2 tree.2) ∧
        Written.member? (Written.tree? depth) tree = some read) members reads := by
    apply each.imp
    rintro ⟨key, value⟩ ⟨_, read⟩ ⟨rfl, tree, prints, found⟩
    refine ⟨(key, tree), ⟨rfl, prints⟩, ?_⟩
    rw [Written.member?, found]
    rfl
  obtain ⟨trees, prints, found⟩ := exists_mapM_of_forall₂ paired
  refine ⟨.object trees, printsIndented_object prints, ?_⟩
  rw [Written.tree?, found]
  rfl

/-- The whole text is a document. -/
theorem document_eq {value read : Json} (isRead : IsReadBack depth value read) :
    Reader.document (Reader.tree depth) (bytes value.pretty) = .ok read := by
  obtain ⟨tree, prints, found⟩ := isRead
  have writes : tree.WritesDocument (bytes value.pretty) := by
    rw [bytes_pretty]
    exact (prints 0).writesDocument
  exact (Reader.document_eq_ok_iff (Reader.reads_tree depth) writes read).2 found

end IsReadBack

end LightList.Json
