/-
This file says what the audit command prints: the numbers of its features and occurrences, and a
table with one line for each stray character.

A value is shown escaped, so it cannot break its line, whatever characters it has. The counts of the
table are those of the source, and the features are those of the written file.
-/

import LightList.Proofs.AuditPieces
import LightList.Proofs.FeatureFile
import LightList.Proofs.RecordLines
import LightList.Proofs.RunOnFiles
import LightList.Proofs.TallyHistory

namespace LightList

namespace Text

/-- No character of the text is a control character of ASCII, so the text stands on one line. -/
def HasNoControl (text : String) : Prop := ∀ character ∈ text.toList, 0x20 ≤ character.toNat

namespace HasNoControl

variable {front back text : String}

theorem ofAll (clear : (text.toList.all fun character => 0x20 ≤ character.toNat) = true) :
    HasNoControl text :=
  fun character member => of_decide_eq_true (List.all_eq_true.1 clear character member)

theorem append (frontClear : HasNoControl front) (backClear : HasNoControl back) :
    HasNoControl (front ++ back) := by
  rw [HasNoControl, String.toList_append]
  exact List.forall_mem_append.2 ⟨frontClear, backClear⟩

theorem join {parts : List String} (each : ∀ part ∈ parts, HasNoControl part) :
    HasNoControl (String.join parts) := by
  induction parts with
  | nil => exact fun _ member => by cases member
  | cons part rest inductionHypothesis =>
      obtain ⟨here, others⟩ := List.forall_mem_cons.1 each
      rw [String.join_cons]
      exact here.append (inductionHypothesis others)

theorem noLineEnd (visible : HasNoControl text) : '\n' ∉ text.toList :=
  fun member => absurd (visible _ member) (by decide)

end HasNoControl

theorem visible_digitChar (value : Nat) : 0x20 ≤ (Nat.digitChar value).toNat := by
  by_cases small : value < 16
  · have table : ∀ value < 16, 0x20 ≤ (Nat.digitChar value).toNat := by decide
    exact table value small
  · rw [Nat.digitChar_eq_star.2 (Nat.not_lt.1 small)]
    decide

/-- The digits of a number are no control characters. -/
theorem visible_toDigits {base : Nat} (proper : 1 < base) (value : Nat) :
    ∀ character ∈ Nat.toDigits base value, 0x20 ≤ character.toNat := by
  induction value using Nat.strongRecOn with
  | ind value inductionHypothesis =>
      rw [Nat.toDigits_eq_if proper]
      split
      · exact List.forall_mem_singleton.2 (visible_digitChar value)
      · have less : value / base < value := Nat.div_lt_self (by omega) proper
        exact List.forall_mem_append.2
          ⟨inductionHypothesis _ less, List.forall_mem_singleton.2 (visible_digitChar _)⟩

theorem hasNoControl_repr (value : Nat) : HasNoControl value.repr := by
  rw [HasNoControl, Nat.repr_eq_ofList_toDigits, String.toList_ofList]
  exact visible_toDigits (by decide) value

/-- Only what has a form of its own is shown as it is. -/
theorem hasNoControl_escapedChar (character : Char) : HasNoControl (escapedChar character) := by
  unfold escapedChar
  split_ifs with isNul isTab isLine isReturn isQuote isBackslash plain
  · exact .ofAll rfl
  · exact .ofAll rfl
  · exact .ofAll rfl
  · exact .ofAll rfl
  · exact .ofAll rfl
  · exact .ofAll rfl
  · have visible : 0x20 ≤ character.toNat := by
      unfold isPlain at plain
      split_ifs at plain with ascii
      · exact of_decide_eq_true plain
      · omega
    rw [HasNoControl, Char.toString, String.toList_singleton]
    exact List.forall_mem_singleton.2 visible
  · have digits : HasNoControl (String.ofList (Nat.toDigits 16 character.toNat)) := by
      rw [HasNoControl, String.toList_ofList]
      exact visible_toDigits (by decide) _
    exact (HasNoControl.append (.ofAll rfl) digits).append (.ofAll rfl)

/-- An escaped text has no control character, whatever the text is. -/
theorem hasNoControl_escaped (text : String) : HasNoControl (escaped text) := by
  have inner : HasNoControl (String.join (text.toList.map escapedChar)) := by
    apply HasNoControl.join
    intro part member
    obtain ⟨character, _, rfl⟩ := List.mem_map.1 member
    exact hasNoControl_escapedChar character
  exact (HasNoControl.append (.ofAll rfl) inner).append (.ofAll rfl)

end Text

namespace Command

open Text

theorem hasNoControl_spaces (count : Nat) : HasNoControl (spaces count) := by
  rw [HasNoControl, spaces, String.toList_ofList]
  intro character member
  rw [List.eq_of_mem_replicate member]
  decide

/-- This is the line of a value and its count, without its end. -/
def tableLine (entry : String × Nat) : String :=
  let value := Text.escaped entry.1
  let count := entry.2.repr
  "  " ++ value ++ spaces (30 - value.length) ++ " " ++ spaces (5 - count.length) ++ count

/-- A line of the table has no control character, so it is one line. -/
theorem hasNoControl_tableLine (entry : String × Nat) : HasNoControl (tableLine entry) :=
  HasNoControl.append (.ofAll rfl) (hasNoControl_escaped entry.1)
    |>.append (hasNoControl_spaces _)
    |>.append (.ofAll rfl)
    |>.append (hasNoControl_spaces _)
    |>.append (hasNoControl_repr entry.2)

/-- These are the lines of the report, the table last. -/
def reportLines (features occurrences : Nat) (destination : String) (table : List (String × Nat)) :
    List String :=
  [s!"Total non-conforming features: {features}",
    s!"Non-conforming occurrences (including unplaceable): {occurrences}",
    s!"Output written to: {destination}",
    "",
    "Non-conforming character values (sorted by count):"] ++ table.map tableLine

/-- A line of the report is a line of the table with its end. -/
theorem reportLine_eq (entry : String × Nat) : reportLine entry = tableLine entry ++ "\n" := by
  simp only [reportLine, tableLine]

/-- The report is its lines, each with its end. -/
theorem reportText_eq (features occurrences : Nat) (destination : String)
    (table : List (String × Nat)) :
    reportText features occurrences destination table =
      String.join ((reportLines features occurrences destination table).map
        fun line => line ++ "\n") := by
  have lines : (table.map tableLine).map (fun line => line ++ "\n") = table.map reportLine := by
    rw [List.map_map]
    exact List.map_congr_left fun entry _ => (reportLine_eq entry).symm
  have itself (text : String) : toString text = text := rfl
  have twoEnds : "\n\n" = "\n" ++ "\n" := rfl
  have heading : "Non-conforming character values (sorted by count):\n" =
      "Non-conforming character values (sorted by count):" ++ "\n" := rfl
  unfold reportText
  simp only [reportLines, lines, itself, twoEnds, heading, List.map_append, List.map_cons,
    List.map_nil, String.join_append, String.join_cons, String.join_nil, String.append_assoc,
    String.empty_append]

/-- No line of the report is broken, if the destination has a name on one line. -/
theorem noLineEnd_reportLines (features occurrences : Nat) {destination : String}
    (oneLine : '\n' ∉ destination.toList) (table : List (String × Nat)) :
    ∀ line ∈ reportLines features occurrences destination table, '\n' ∉ line.toList := by
  have constant (text : String)
      (clear : (text.toList.all fun character => 0x20 ≤ character.toNat) = true) :
      '\n' ∉ text.toList :=
    (HasNoControl.ofAll clear).noLineEnd
  have behind {front back : String} (frontOne : '\n' ∉ front.toList)
      (backOne : '\n' ∉ back.toList) : '\n' ∉ (front ++ back).toList := by
    rw [String.toList_append, List.mem_append]
    exact not_or_intro frontOne backOne
  have number (count : Nat) : '\n' ∉ (toString count).toList := (hasNoControl_repr count).noLineEnd
  refine List.forall_mem_append.2 ⟨?_, ?_⟩
  · simp only [List.forall_mem_cons]
    exact ⟨behind (constant _ rfl) (number features), behind (constant _ rfl) (number occurrences),
      behind (constant _ rfl) oneLine, constant _ rfl, constant _ rfl, List.forall_mem_nil _⟩
  · intro line member
    obtain ⟨entry, _, rfl⟩ := List.mem_map.1 member
    exact (hasNoControl_tableLine entry).noLineEnd

/-- Splitting the report at its line ends gives its lines back. -/
theorem splitText_reportText (features occurrences : Nat) {destination : String}
    (oneLine : '\n' ∉ destination.toList) (table : List (String × Nat)) :
    splitText '\n' (reportText features occurrences destination table) =
      reportLines features occurrences destination table ++ [""] := by
  rw [reportText_eq]
  exact splitText_ended (noLineEnd_reportLines features occurrences oneLine table)

end Command

section Tables

variable (elements : List Element) (index : PointIndex) (codes : List String)

/-- These are the characters outside of the codes, one for each element that has one. -/
def strayCharacters : List String :=
  elements.filterMap (Element.stray? (.ofCodes codes))

/-- An audit only asks its tally for values that are classified one after the other. -/
theorem Audit.tally_eq_after :
    (Audit.ofElements elements index (.new (.ofCodes codes))).tally =
      (Tally.new (.ofCodes codes)).after
        ((elements.filterMap fun element => element.tags.light? "character").map
          Tally.Call.classify) := by
  rw [Audit.tally_ofElements, Tally.after_eq_run, Tally.asked, List.filterMap_map]
  congr 1
  exact List.filterMap_some.symm

/-- What the tally has met is what the elements carry. -/
theorem strays_eq_strayCharacters :
    Tally.strays codes ((elements.filterMap fun element => element.tags.light? "character").map
      Tally.Call.classify) = strayCharacters elements codes := by
  rw [← Tally.strays_eq, Tally.asked, List.filterMap_map, strayCharacters, ← Audit.filterMap_stray]
  congr 1
  exact List.filterMap_some

/-- The table lists every stray character, and its counts add up to the total. -/
theorem Audit.lists_report :
    let tally := (Audit.ofElements elements index (.new (.ofCodes codes))).tally
    Tally.Lists tally.report (strayCharacters elements codes) ∧
      tally.total = (tally.report.map Prod.snd).sum ∧
      tally.total = (strayCharacters elements codes).length := by
  intro tally
  have isTally : tally = _ := Audit.tally_eq_after elements index codes
  rw [isTally, ← strays_eq_strayCharacters]
  refine ⟨Tally.lists_report _ _, ?_, Tally.total_after _ _⟩
  rw [Tally.total_eq_sum, Tally.report]
  exact (((List.mergeSort_perm _ _).map Prod.snd).sum_eq).symm

/-- There are no more features than stray characters, as some elements have no place. -/
theorem Audit.length_features_le :
    (Audit.ofElements elements index (.new (.ofCodes codes))).features.toList.length ≤
      (strayCharacters elements codes).length := by
  have balance := Audit.countP_stray index (.ofCodes codes) elements
  rw [← List.length_filterMap_eq_countP] at balance
  rw [Audit.features_ofElements, strayCharacters, balance]
  exact Nat.le_add_right _ _

end Tables

/-- The document of an audit has one entry for each of its features. -/
theorem Feature.exists_entries_document (features : List Feature) :
    ∃ entries : List Json,
      Json.Reader.document (Json.Reader.tree Json.Reader.depthLimit)
          (document features).toUTF8.toList =
        .ok (.object [("features", .array entries), ("type", .string "FeatureCollection")]) ∧
      entries.length = features.length := by
  obtain ⟨entries, areEntries, read⟩ := exists_entries (Json.Reader.depthLimit - 5) features
  have isRead : Json.IsReadBack Json.Reader.depthLimit (collection features) _ :=
    isReadBack_collection read
  exact ⟨entries, isRead.document_eq, areEntries.length_eq.symm⟩

namespace Command

/--
When the audit command has succeeded, its report names the number of features in the written
document, the number of occurrences in the source and the destination. After that each stray
character of the source has one line with its count; the counts add up, they descend, and of equal
ones the earlier comes first. The document is read at the destination unless that is the null device.
-/
theorem run_characters_report {arguments : List String} {environment : Environment}
    {files : FileTree} {limits : Limits} {input output : String}
    (parsed : parse environment arguments = .ok (.characters input output))
    (succeeded : (run arguments environment files limits).report.exitCode = 0)
    (oneLine : '\n' ∉ output.toList) :
    let outcome := run arguments environment files limits
    ∃ (elements : List Element) (count : Nat) (table : List (String × Nat)),
      let strays := strayCharacters elements Vocabulary.lightCharacterCodes
      let occurrences := (table.map Prod.snd).sum
      (Source.read files input).result = .ok elements ∧
      Text.splitText '\n' outcome.report.output =
        reportLines count occurrences output table ++ [""] ∧
      Tally.Lists table strays ∧
      occurrences = strays.length ∧
      count ≤ occurrences ∧
      (¬ files.IsDiscarded output → outcome.files.read output = .ok outcome.written) ∧
      ∃ entries, entries.length = count ∧
        Json.Reader.document (Json.Reader.tree Json.Reader.depthLimit) outcome.written =
          .ok (.object [("features", .array entries), ("type", .string "FeatureCollection")]) := by
  intro outcome
  obtain ⟨elements, ⟨source, named, read⟩, arrived, printed⟩ :=
    exists_arrived_of_exit parsed succeeded
  cases named
  let codes := Vocabulary.lightCharacterCodes
  let audit := Audit.ofElements elements (.ofElements elements) (.new (.ofCodes codes))
  obtain ⟨lists, total, length⟩ := Audit.lists_report elements (.ofElements elements) codes
  obtain ⟨entries, document, entriesLength⟩ :=
    Feature.exists_entries_document audit.features.toList
  refine ⟨elements, audit.features.toList.length, audit.tally.report, read, ?_, lists,
    total.symm.trans length, ?_, ?_, entries, entriesLength, ?_⟩
  · rw [printed, ← total]
    exact splitText_reportText _ _ oneLine _
  · rw [← total, length]
    exact Audit.length_features_le elements (.ofElements elements) codes
  · intro kept
    rw [arrived.taken]
    exact (arrived.holds kept).arrived
  · rw [arrived.taken]
    exact document

/-- One character holds a line end and quotes, and the other one stands on a way without a place. -/
def strayText : String :=
  "\x7b\"elements\":[\x7b\"type\":\"node\",\"id\":1,\"lat\":1,\"lon\":2," ++
    "\"tags\":\x7b\"seamark:light:character\":\"Fl\\n\\\"3\\\"\"\x7d\x7d," ++
    "\x7b\"type\":\"way\",\"id\":2,\"tags\":\x7b\"seamark:light:1:character\":\"fl\"\x7d\x7d]\x7d"

def strayFile : FileTree where
  home := ["work"]
  entries := [(["work", "lights.json"], .file strayText.toUTF8.toList)]

def auditArguments : List String := ["characters", "--input=lights.json", "--output", "strays"]

/-- Both of these elements carry a stray character, and only one of them has a place. -/
theorem run_characters_report_strays :
    let outcome := run auditArguments [] strayFile
    parse [] auditArguments = .ok (.characters "lights.json" "strays") ∧
      outcome.report.exitCode = 0 ∧
      ∃ (count : Nat) (table : List (String × Nat)),
        Text.splitText '\n' outcome.report.output =
          reportLines count 2 "strays" table ++ [""] ∧
        Tally.Lists table ["Fl\n\"3\"", "fl"] ∧
        ∃ bytes entries, outcome.files.read "strays" = .ok bytes ∧
          Json.Reader.document (Json.Reader.tree Json.Reader.depthLimit) bytes =
            .ok (.object [("features", .array entries), ("type", .string "FeatureCollection")]) ∧
          entries.length = count := by
  intro outcome
  have computed : parse [] auditArguments = .ok (.characters "lights.json" "strays") ∧
      outcome.report.exitCode = 0 ∧
      strayFile.destination? "strays" = some ["work", "strays"] ∧
      (Source.read strayFile "lights.json").result.toOption.map (fun elements =>
        strayCharacters elements Vocabulary.lightCharacterCodes) =
          some ["Fl\n\"3\"", "fl"] := by
    decide +kernel
  obtain ⟨parsed, succeeded, leads, strays⟩ := computed
  obtain ⟨elements, count, table, read, lines, lists, length, _, stands, entries, number, document⟩ :=
    run_characters_report parsed succeeded (Text.HasNoControl.ofAll rfl).noLineEnd
  have kept : ¬ strayFile.IsDiscarded "strays" := by
    intro discarded
    rw [discarded.destination?_eq_none] at leads
    cases leads
  rw [read] at strays
  have listed : strayCharacters elements Vocabulary.lightCharacterCodes = _ :=
    Option.some.inj strays
  rw [listed] at lists length
  rw [length] at lines
  exact ⟨parsed, succeeded, count, table, lines, lists, _, entries, stands kept, document, number⟩

end Command

end LightList
