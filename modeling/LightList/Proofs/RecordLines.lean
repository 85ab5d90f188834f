/-
This file shows that the written records stand on lines of their own.

The printer escapes every control character of a tag, so the only line feeds are those that end the
lines. Each line is an object in full, which is read as its record without the lines around it.
-/

import LightList.Proofs.FinitePlaces
import LightList.Proofs.Json.CompactText
import LightList.Text.Split

namespace LightList

namespace Text

/-- Lines that are all ended are split into themselves, and nothing is left behind the last one. -/
theorem splitText_ended {lines : List String} (absent : ∀ line ∈ lines, '\n' ∉ line.toList) :
    splitText '\n' (String.join (lines.map fun line => line ++ "\n")) = lines ++ [""] := by
  have lineEnd : "\n".toList = ['\n'] := rfl
  induction lines with
  | nil => rfl
  | cons line rest inductionHypothesis =>
      obtain ⟨here, others⟩ := List.forall_mem_cons.1 absent
      have further := inductionHypothesis others
      rw [splitText] at further ⊢
      rw [List.map_cons, String.join_cons, String.toList_append, String.toList_append, lineEnd,
        List.append_assoc, List.singleton_append, split_append_cons here, List.map_cons,
        String.ofList_toList, further, List.cons_append]

end Text

namespace Record

open Json Json.Written Text

/-- These are the lines of the records: a comma ends each line that another one follows. -/
def entryLines : List Record → List String
  | [] => []
  | record :: rest =>
      (record.json.compact ++ if rest.isEmpty then "" else ",") :: entryLines rest

/-- There is one line for each record. -/
theorem length_entryLines (records : List Record) :
    (entryLines records).length = records.length := by
  induction records with
  | nil => rfl
  | cons record rest inductionHypothesis =>
      rw [entryLines, List.length_cons, List.length_cons, inductionHypothesis]

/-- Each record has its own line, and all lines but the last end in a comma. -/
theorem getElem?_entryLines {records : List Record} {place : Nat} {record : Record}
    (found : records[place]? = some record) :
    (entryLines records)[place]? =
      some (record.json.compact ++ if place + 1 < records.length then "," else "") := by
  induction records generalizing place with
  | nil => cases found
  | cons first rest inductionHypothesis =>
      cases place with
      | zero =>
          cases found
          cases rest <;> rfl
      | succ place =>
          rw [entryLines, List.getElem?_cons_succ, inductionHypothesis found, List.length_cons]
          simp only [Nat.add_lt_add_iff_right]

/-- A line ends with the comma and the line feed that stand before the next one. -/
theorem join_lines (record : Record) (rest : List Record) :
    record.json.compact ++ String.join (lines rest) ++ "\n" =
      String.join ((entryLines (record :: rest)).map fun line => line ++ "\n") := by
  induction rest generalizing record with
  | nil => simp [lines, entryLines]
  | cons next rest inductionHypothesis =>
      rw [entryLines, List.map_cons, String.join_cons, ← inductionHypothesis next, lines,
        String.join_append, String.join_cons, String.join_cons, String.join_cons, String.join_nil]
      simp only [String.append_assoc, String.append_empty]
      rfl

/-- The brackets stand on the first and on the last line. -/
def allLines (records : List Record) : List String :=
  ["\x7b\"elements\":["] ++ entryLines records ++ ["]\x7d"]

/-- The document is its lines, each with its end. -/
theorem document_eq (records : List Record) :
    document records = String.join ((allLines records).map fun line => line ++ "\n") := by
  cases records with
  | nil => rfl
  | cons record rest =>
      have opening : "\x7b\"elements\":[\n" = "\x7b\"elements\":[" ++ "\n" := rfl
      have closing : "]\x7d\n" = "]\x7d" ++ "\n" := rfl
      simp only [document, documentPieces, allLines, opening, closing, List.map_append,
        String.join_append, ← join_lines, List.map_cons, List.map_nil, String.join_cons,
        String.join_nil, String.append_empty, String.append_assoc]

/-- One line opens the document and one closes it. -/
theorem length_allLines (records : List Record) :
    (allLines records).length = records.length + 2 := by
  rw [allLines, List.length_append, List.length_append, length_entryLines, List.length_singleton,
    List.length_singleton]
  omega

/-- The line of a record has no control character. -/
theorem noControl_entryLines (records : List Record) :
    ∀ line ∈ entryLines records, ∀ character ∈ line.toList, 0x20 ≤ character.toNat := by
  induction records with
  | nil => exact fun _ member => by cases member
  | cons record rest inductionHypothesis =>
      have mark : IsTight (if rest.isEmpty then "" else ",") := by
        cases rest.isEmpty <;> exact isTight_mark (by decide)
      exact List.forall_mem_cons.2
        ⟨((isTight_compact record.json).append mark).noControl, inductionHypothesis⟩

/-- No line of the document has a control character. -/
theorem noControl_allLines (records : List Record) :
    ∀ line ∈ allLines records, ∀ character ∈ line.toList, 0x20 ≤ character.toNat := by
  have bracket {text : String}
      (shown : (text.toList.all fun character => 0x20 ≤ character.toNat) = true) :
      ∀ line ∈ [text], ∀ character ∈ line.toList, 0x20 ≤ character.toNat := by
    intro line member character inside
    rw [List.mem_singleton.1 member] at inside
    exact of_decide_eq_true (List.all_eq_true.1 shown character inside)
  exact List.forall_mem_append.2
    ⟨List.forall_mem_append.2 ⟨bracket rfl, noControl_entryLines records⟩, bracket rfl⟩

/-- Splitting the document at its line ends gives its lines back. -/
theorem splitText_document (records : List Record) :
    splitText '\n' (document records) = allLines records ++ [""] := by
  rw [document_eq]
  apply splitText_ended
  intro line member isLineEnd
  exact absurd (noControl_allLines records line member _ isLineEnd) (by decide)

/-- The line holds one object in full and nothing else, and is read as a node of the record. -/
structure StandsOn (record : Record) (line : String) : Prop where
  object : ∃ members, (Written.object members).Writes (bytes line)
  tight : IsTight line
  read : ∃ element, Reader.document Overpass.elementReader (bytes line) = .ok element ∧
    element.kind = .node ∧ element.id = record.id ∧ element.tags = record.tags

/-- The line of a record can be read on its own. -/
theorem standsOn_compact (record : Record) : record.StandsOn record.json.compact := by
  obtain ⟨tree, prints, value⟩ : record.IsReadAs record.rereadElement :=
    isReadAs_of_coordinates (exists_prints_float _) (exists_prints_float _)
  constructor
  · -- The first byte of what is printed tells that it is an object.
    have opening : bytes "\x7b" = [openBrace] := bytes_eq _
    obtain ⟨more, printed⟩ : ∃ more, bytes record.json.compact = openBrace :: more := by
      rw [json, compact]
      simp only [bytes_append, opening, List.append_assoc, List.singleton_append]
      exact ⟨_, rfl⟩
    obtain ⟨byte, _, written, begins⟩ := Writes.exists_cons prints
    rw [printed] at written
    cases written
    cases tree with
    | object members => exact ⟨members, prints⟩
    | _ => cases begins.shape
  · exact isTight_compact record.json
  · exact ⟨record.rereadElement, (Reader.document_eq_ok_iff Overpass.reads_elementReader
      prints.writesDocument _).2 value, rfl, rfl, rfl⟩

/--
Whatever the tags hold, every record has a line of its own between those of the brackets, with a
comma where another record follows. No other control character than the line ends is written.
-/
theorem document_lines (records : List Record) :
    let text := document records
    let entries := entryLines records
    text.toList.count '\n' = records.length + 2 ∧
    text.toList.getLast? = some '\n' ∧
    splitText '\n' text = ["\x7b\"elements\":["] ++ entries ++ ["]\x7d"] ++ [""] ∧
    entries.length = records.length ∧
    (∀ place record, records[place]? = some record →
      entries[place]? =
        some (record.json.compact ++ if place + 1 < records.length then "," else "") ∧
      record.StandsOn record.json.compact) ∧
    ∀ line ∈ splitText '\n' text, ∀ character ∈ line.toList, 0x20 ≤ character.toNat := by
  intro text entries
  have parts : splitText '\n' text = allLines records ++ [""] := splitText_document records
  refine ⟨?_, ?_, parts, length_entryLines records, fun place record found =>
    ⟨getElem?_entryLines found, record.standsOn_compact⟩, ?_⟩
  · have counted := length_split '\n' text.toList
    rw [← List.length_map (f := String.ofList)] at counted
    change (splitText '\n' text).length = _ at counted
    rw [parts, List.length_append, length_allLines, List.length_singleton] at counted
    omega
  · change (document records).toList.getLast? = some '\n'
    rw [document_eq, allLines, List.map_append, String.join_append, String.toList_append,
      List.getLast?_append]
    rfl
  · rw [parts]
    intro line member
    rcases List.mem_append.1 member with inside | isRest
    · exact noControl_allLines records line inside
    · rw [List.mem_singleton.1 isRest]
      exact fun _ absent => by cases absent

end Record

end LightList
