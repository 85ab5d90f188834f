/-
This file says what a run of the program leaves on a machine.

A run that only shows a text, or that fails before its destination is opened, leaves every file as it
was. Every other run has read its source before it opens the destination, and it changes no other
file, also where both are the same file. When it succeeds, the destination took the whole document.

It is not so that a failure always leaves the files as they were: a full disk cuts the document off,
and a report that cannot be printed comes after the document.
-/

import LightList.Command.Run
import LightList.Proofs.FileTreeWrites

namespace LightList.Command

namespace Invocation

/-- This is where the document of an invocation goes. -/
def output : Invocation → String
  | reduce _ output _ _ => output
  | characters _ output => output

/-- This is the document that the elements of the source are made into. -/
def document (invocation : Invocation) (elements : List Element) : String :=
  let index := PointIndex.ofElements elements
  match invocation with
  | reduce .. => Record.document (Reduction.recordsOf elements index)
  | characters .. =>
      Feature.document (Audit.ofElements elements index (.new .lightCharacters)).features.toList

/-- This is what is printed when the document has arrived. -/
def printout (invocation : Invocation) (elements : List Element) : String :=
  match invocation with
  | reduce .. => ""
  | characters _ output =>
      let audit :=
        Audit.ofElements elements (PointIndex.ofElements elements) (.new .lightCharacters)
      reportText audit.features.toList.length audit.tally.total output audit.tally.report

/-- The invocation has a local source, and these are the elements in it. -/
def Reads (invocation : Invocation) (files : FileTree) (elements : List Element) : Prop :=
  ∃ source, invocation.source? = some source ∧ (Source.read files source).result = .ok elements

/-- The source can be read and the destination can be opened. -/
def Opens (invocation : Invocation) (files : FileTree) : Prop :=
  (∃ elements, invocation.Reads files elements) ∧
    ((∃ place, files.destination? invocation.output = some place) ∨
      files.IsDiscarded invocation.output)

section Performing

variable {invocation : Invocation} {files : FileTree}

/-- A source has one list of elements. -/
theorem Reads.unique {elements others : List Element} (reads : invocation.Reads files elements)
    (otherReads : invocation.Reads files others) : elements = others := by
  obtain ⟨source, named, read⟩ := reads
  obtain ⟨other, otherNamed, otherRead⟩ := otherReads
  rw [named] at otherNamed
  cases otherNamed
  rw [read] at otherRead
  exact Except.ok.inj otherRead

/-- Every source that can be read leads to a delivery of its document. -/
theorem exists_delivery {elements : List Element} (reads : invocation.Reads files elements) :
    ∃ delivery, (invocation.perform files.read).result = .ok delivery ∧
      delivery.destination = invocation.output ∧
      delivery.document = invocation.document elements ∧
      delivery.output = invocation.printout elements := by
  obtain ⟨source, named, read⟩ := reads
  have isRead : (Source.reading source (files.read source)).result = .ok elements := read
  rcases invocation with ⟨_ | _, output, address, timeout⟩ | ⟨_, output⟩
  · cases named
  · cases named
    simp only [perform, reduceFile, isRead]
    exact ⟨_, rfl, rfl, rfl, rfl⟩
  · cases named
    simp only [perform, auditFile, isRead]
    exact ⟨_, rfl, rfl, rfl, rfl⟩

/-- Without a source that can be read nothing is delivered. -/
theorem exists_failure (unread : ¬ ∃ elements, invocation.Reads files elements) :
    ∃ failure, (invocation.perform files.read).result = .error failure := by
  rcases invocation with ⟨_ | source, output, address, timeout⟩ | ⟨source, output⟩
  · exact ⟨_, rfl⟩
  · simp only [perform, reduceFile]
    split
    · exact ⟨_, rfl⟩
    · next elements read => exact absurd ⟨elements, source, rfl, read⟩ unread
  · simp only [perform, auditFile]
    split
    · exact ⟨_, rfl⟩
    · next elements read => exact absurd ⟨elements, source, rfl, read⟩ unread

end Performing

end Invocation

section Concluding

variable {performance : Performance} (setting : LogSetting) (files : FileTree) (limits : Limits)

/-- A performance that failed writes nothing. -/
theorem conclude_of_error {failure : Failure} (failed : performance.result = .error failure) :
    (performance.conclude setting files limits).report.exitCode = failureExit ∧
      (performance.conclude setting files limits).files = files := by
  rw [Performance.conclude, failed]
  exact ⟨rfl, rfl⟩

/-- What a delivery leaves behind is what its write leaves behind, and printing comes last. -/
theorem conclude_of_ok {delivery : Delivery} (performed : performance.result = .ok delivery) :
    let outcome := performance.conclude setting files limits
    let attempt := files.write limits.disk? delivery.destination delivery.document.toUTF8.toList
    outcome.files = attempt.files ∧ outcome.written = attempt.taken ∧
      (attempt.fault?.isSome → outcome.report.exitCode = failureExit) ∧
      (attempt.fault? = none →
        outcome.report.output = printed limits.output? delivery.output ∧
          outcome.report.exitCode =
            if (Limit.fault? limits.output? delivery.output.toList).isSome then unprintedExit
            else 0) := by
  simp only [Performance.conclude, performed]
  generalize files.write limits.disk? delivery.destination delivery.document.toUTF8.toList = attempt
  cases attempt.fault? with
  | some fault => exact ⟨rfl, rfl, fun _ => rfl, nofun⟩
  | none =>
      refine ⟨rfl, rfl, nofun, fun _ => ?_⟩
      rw [Performance.delivered]
      cases Limit.fault? limits.output? delivery.output.toList with
      | none => exact ⟨rfl, rfl⟩
      | some unprinted => exact ⟨rfl, rfl⟩

end Concluding

/--
The destination took these bytes. It holds them unless it is the null device, and nothing else is
changed.
-/
structure Arrived (files : FileTree) (outcome : Outcome) (path : String) (bytes : List UInt8) :
    Prop where
  taken : outcome.written = bytes
  holds : ¬ files.IsDiscarded path → files.IsWritten outcome.files path bytes
  discards : files.IsDiscarded path → outcome.files = files

/-- The destination takes all of these bytes. -/
def TakesAll (files : FileTree) (disk? : Option Limit) (path : String) (bytes : List UInt8) :
    Prop :=
  files.IsDiscarded path ∨
    (∃ place, files.destination? path = some place) ∧ Limit.fault? disk? bytes = none

/-- A run with this invocation ends in one of three ways. -/
inductive Ends (invocation : Invocation) (files : FileTree) (limits : Limits) (outcome : Outcome) :
    Prop where
  /-- The source cannot be read, or the destination cannot be opened. -/
  | untouched (failed : outcome.report.exitCode = failureExit) (same : outcome.files = files)
      (closed : ¬ invocation.Opens files)
  /-- The destination was opened, but it does not take the whole document. -/
  | cutOff (elements : List Element) (taken : List UInt8)
      (failed : outcome.report.exitCode = failureExit) (reads : invocation.Reads files elements)
      (opens : invocation.Opens files)
      (refused : ¬ TakesAll files limits.disk? invocation.output
        (invocation.document elements).toUTF8.toList)
      (written : files.IsWritten outcome.files invocation.output taken)
  /-- The document arrives, and only then the report is printed. -/
  | arrived (elements : List Element) (reads : invocation.Reads files elements)
      (takes : TakesAll files limits.disk? invocation.output
        (invocation.document elements).toUTF8.toList)
      (arrives : Arrived files outcome invocation.output
        (invocation.document elements).toUTF8.toList)
      (told : outcome.report.output = printed limits.output? (invocation.printout elements))
      (exited : outcome.report.exitCode =
        if (Limit.fault? limits.output? (invocation.printout elements).toList).isSome then
          unprintedExit
        else 0)

section Running

variable {arguments : List String} {environment : Environment} {invocation : Invocation}
  {files : FileTree} {limits : Limits}

/-- A destination that takes everything can be opened. -/
theorem Invocation.opens_of_takesAll {elements : List Element} {disk? : Option Limit}
    {bytes : List UInt8} (reads : invocation.Reads files elements)
    (takes : TakesAll files disk? invocation.output bytes) : invocation.Opens files :=
  ⟨⟨elements, reads⟩, takes.symm.imp_left And.left⟩

/-- A run whose arguments can be used is what its performance concludes with. -/
theorem run_eq_conclude (parsed : parse environment arguments = .ok invocation) :
    run arguments environment files limits =
      (invocation.perform files.read).conclude (LogSetting.ofEnvironment environment) files
        limits := by
  simp only [run, parsed]

/-- The write that a delivery leads to decides how the run ends. -/
theorem ends_of_reads (parsed : parse environment arguments = .ok invocation)
    {elements : List Element} (reads : invocation.Reads files elements) :
    Ends invocation files limits (run arguments environment files limits) := by
  let bytes := (invocation.document elements).toUTF8.toList
  obtain ⟨delivery, performed, destination, document, output⟩ := Invocation.exists_delivery reads
  obtain ⟨sameFiles, sameTaken, ofFault, ofNone⟩ :=
    conclude_of_ok (LogSetting.ofEnvironment environment) files limits performed
  rw [← run_eq_conclude parsed] at sameFiles sameTaken ofFault ofNone
  rw [destination, document] at sameFiles sameTaken ofFault ofNone
  rw [output] at ofNone
  cases files.writeEnds_write limits.disk? invocation.output bytes with
  | closed same refused noPlace kept =>
      refine .untouched (ofFault refused) (sameFiles.trans same) ?_
      rintro ⟨-, ⟨place, leads⟩ | discarded⟩
      · rw [noPlace] at leads
        cases leads
      · exact kept discarded
  | discarded same accepted taken isDiscarded =>
      obtain ⟨told, exited⟩ := ofNone accepted
      have arrives : Arrived files _ invocation.output bytes :=
        { taken := sameTaken.trans taken
          holds := fun kept => absurd isDiscarded kept
          discards := fun _ => sameFiles.trans same }
      exact .arrived elements reads (.inl isDiscarded) arrives told exited
  | filled place leads fault taken written =>
      have kept : ¬ files.IsDiscarded invocation.output := by
        intro discarded
        rw [discarded.destination?_eq_none] at leads
        cases leads
      rw [← sameFiles] at written
      cases cut : Limit.fault? limits.disk? bytes with
      | some reason =>
          rw [cut] at fault
          refine .cutOff elements _ (ofFault (by rw [fault]; rfl)) reads
            ⟨⟨elements, reads⟩, .inl ⟨place, leads⟩⟩ ?_ written
          rintro (discarded | ⟨-, complete⟩)
          · exact kept discarded
          · rw [cut] at complete
            cases complete
      | none =>
          rw [Limit.taken_of_fault?_eq_none cut] at taken
          rw [cut] at fault
          obtain ⟨told, exited⟩ := ofNone fault
          rw [taken] at written
          have arrives : Arrived files _ invocation.output bytes :=
            { taken := sameTaken.trans taken
              holds := fun _ => written
              discards := fun discarded => absurd discarded kept }
          exact .arrived elements reads (.inr ⟨⟨place, leads⟩, cut⟩) arrives told exited

/-- Every run whose arguments can be used ends in one of these ways. -/
theorem ends_of_run (parsed : parse environment arguments = .ok invocation) (files : FileTree)
    (limits : Limits) : Ends invocation files limits (run arguments environment files limits) := by
  by_cases read : ∃ elements, invocation.Reads files elements
  · obtain ⟨elements, reads⟩ := read
    exact ends_of_reads parsed reads
  · obtain ⟨failure, failed⟩ := Invocation.exists_failure read
    obtain ⟨exited, same⟩ :=
      conclude_of_error (LogSetting.ofEnvironment environment) files limits failed
    rw [← run_eq_conclude parsed] at exited same
    exact .untouched exited same fun opens => read opens.1

namespace Ends

variable {outcome : Outcome} (ends : Ends invocation files limits outcome)

include ends

/-- Without a destination that could be opened the run fails and leaves the files as they were. -/
theorem of_closed (closed : ¬ invocation.Opens files) :
    outcome.report.exitCode ≠ 0 ∧ outcome.files = files := by
  cases ends with
  | untouched failed same => exact ⟨failed.trans_ne (by decide), same⟩
  | cutOff elements taken failed reads opens => exact absurd opens closed
  | arrived elements reads takes => exact absurd (Invocation.opens_of_takesAll reads takes) closed

/-- Nothing but the destination is changed, whichever way the run ends. -/
theorem frame :
    outcome.files = files ∨ ∃ bytes, files.IsWritten outcome.files invocation.output bytes := by
  cases ends with
  | untouched failed same => exact .inl same
  | cutOff elements taken failed reads opens refused written => exact .inr ⟨taken, written⟩
  | arrived elements reads takes arrives =>
      by_cases discarded : files.IsDiscarded invocation.output
      · exact .inl (arrives.discards discarded)
      · exact .inr ⟨_, arrives.holds discarded⟩

/-- Zero says that everything was read, taken and printed. -/
theorem exitCode_eq_zero_iff :
    outcome.report.exitCode = 0 ↔ ∃ elements, invocation.Reads files elements ∧
      TakesAll files limits.disk? invocation.output
        (invocation.document elements).toUTF8.toList ∧
      Limit.fault? limits.output? (invocation.printout elements).toList = none := by
  cases ends with
  | untouched failed same closed =>
      refine iff_of_false (failed.trans_ne (by decide)) ?_
      rintro ⟨elements, reads, takes, -⟩
      exact closed (Invocation.opens_of_takesAll reads takes)
  | cutOff elements taken failed reads opens refused =>
      refine iff_of_false (failed.trans_ne (by decide)) ?_
      rintro ⟨others, otherReads, takes, -⟩
      rw [otherReads.unique reads] at takes
      exact refused takes
  | arrived elements reads takes arrives told exited =>
      cases unprinted : Limit.fault? limits.output? (invocation.printout elements).toList with
      | none =>
          rw [unprinted] at exited
          exact iff_of_true exited ⟨elements, reads, takes, unprinted⟩
      | some fault =>
          rw [unprinted] at exited
          have broken : unprintedExit ≠ 0 := by decide
          refine iff_of_false (exited.trans_ne broken) ?_
          rintro ⟨others, otherReads, -, complete⟩
          rw [otherReads.unique reads, unprinted] at complete
          cases complete

/-- Where at most the report is missing the document has arrived, and this is what was printed. -/
theorem exists_arrived
    (ended : outcome.report.exitCode = 0 ∨ outcome.report.exitCode = unprintedExit) :
    ∃ elements, invocation.Reads files elements ∧
      Arrived files outcome invocation.output (invocation.document elements).toUTF8.toList ∧
      outcome.report.output = printed limits.output? (invocation.printout elements) := by
  have unfinished : ¬ (failureExit = 0 ∨ failureExit = unprintedExit) := by decide
  cases ends with
  | untouched failed => exact absurd (failed ▸ ended) unfinished
  | cutOff elements taken failed => exact absurd (failed ▸ ended) unfinished
  | arrived elements reads takes arrives told => exact ⟨elements, reads, arrives, told⟩

end Ends

/-- A run that succeeds has told everything, and its document has arrived. -/
theorem exists_arrived_of_exit (parsed : parse environment arguments = .ok invocation)
    (succeeded : (run arguments environment files limits).report.exitCode = 0) :
    let outcome := run arguments environment files limits
    ∃ elements, invocation.Reads files elements ∧
      Arrived files outcome invocation.output (invocation.document elements).toUTF8.toList ∧
      outcome.report.output = invocation.printout elements := by
  intro outcome
  have ends := ends_of_run parsed files limits
  obtain ⟨elements, reads, arrived, told⟩ := ends.exists_arrived (.inl succeeded)
  obtain ⟨others, otherReads, -, complete⟩ := ends.exitCode_eq_zero_iff.1 succeeded
  rw [otherReads.unique reads] at complete
  refine ⟨elements, reads, arrived, told.trans ?_⟩
  rw [printed, Limit.taken_of_fault?_eq_none complete, String.ofList_toList]

end Running

/--
A run that only shows a text succeeds and leaves the files as they were. One that fails over its
arguments, or before its destination is opened, leaves them so too. Any other run changes no file but
its destination. It exits with zero exactly if the source was read, the destination took the whole
document and the report was printed; then, and also where only printing failed, the document of the
elements that were in the source before has arrived.
-/
theorem run_files (arguments : List String) (environment : Environment) (files : FileTree)
    (limits : Limits) :
    let outcome := run arguments environment files limits
    (∀ halt, parse environment arguments = .error halt → outcome.files = files ∧
        (outcome.report.exitCode = 0 ↔ ∃ text, halt = .shown text)) ∧
      (∀ text, parse environment arguments = .error (.shown text) →
        outcome.report.output = printed limits.output? text) ∧
      ∀ invocation, parse environment arguments = .ok invocation →
        (¬ invocation.Opens files → outcome.report.exitCode ≠ 0 ∧ outcome.files = files) ∧
        (outcome.files = files ∨
          ∃ bytes, files.IsWritten outcome.files invocation.output bytes) ∧
        (outcome.report.exitCode = 0 ↔ ∃ elements, invocation.Reads files elements ∧
          TakesAll files limits.disk? invocation.output
            (invocation.document elements).toUTF8.toList ∧
          Limit.fault? limits.output? (invocation.printout elements).toList = none) ∧
        (outcome.report.exitCode = 0 ∨ outcome.report.exitCode = unprintedExit →
          ∃ elements, invocation.Reads files elements ∧
            Arrived files outcome invocation.output
              (invocation.document elements).toUTF8.toList) := by
  intro outcome
  refine ⟨?_, ?_, ?_⟩
  · intro halt parsed
    simp only [outcome, run, parsed]
    cases halt with
    | shown text => exact ⟨trivial, iff_of_true rfl ⟨text, rfl⟩⟩
    | incomplete => exact ⟨trivial, iff_of_false nofun nofun⟩
    | refused error => exact ⟨trivial, iff_of_false nofun nofun⟩
  · intro text shown
    simp only [outcome, run, shown]
    rfl
  · intro invocation parsed
    have ends := ends_of_run parsed files limits
    refine ⟨ends.of_closed, ends.frame, ends.exitCode_eq_zero_iff, fun ended => ?_⟩
    obtain ⟨elements, reads, arrived, -⟩ := ends.exists_arrived ended
    exact ⟨elements, reads, arrived⟩

def nodeText : String :=
  "\x7b\"elements\":[\x7b\"type\":\"node\",\"id\":1,\"lat\":1,\"lon\":2,\"tags\":\x7b\"name\":\"A\"\x7d\x7d]\x7d"

/-- The source has one node, and the file beside it is not asked for. -/
def nodeFile : FileTree where
  home := ["work"]
  entries := [(["dev"], .directory), (["dev", "null"], .nullDevice),
    (["work", "lights.json"], .file nodeText.toUTF8.toList), (["work", "notes.txt"], .file [])]

def inPlaceArguments : List String :=
  ["reduce", "--local", "lights.json", "--output=./lights.json"]

def inPlace : Invocation :=
  .reduce (some "lights.json") "./lights.json"
    "https://postpass.geofabrik.de/api/0.2/interpreter" 300

/-- The destination of this run is its source. -/
theorem run_files_in_place :
    parse [] inPlaceArguments = .ok inPlace ∧
      nodeFile.destination? "./lights.json" = nodeFile.destination? "lights.json" ∧
      (run inPlaceArguments [] nodeFile).report.exitCode = 0 ∧
      ∃ elements, inPlace.Reads nodeFile elements ∧
        nodeFile.IsWritten (run inPlaceArguments [] nodeFile).files "./lights.json"
          (inPlace.document elements).toUTF8.toList := by
  have computed : parse [] inPlaceArguments = .ok inPlace ∧
      nodeFile.destination? "./lights.json" = some ["work", "lights.json"] ∧
      nodeFile.destination? "lights.json" = some ["work", "lights.json"] ∧
      (run inPlaceArguments [] nodeFile).report.exitCode = 0 := by
    decide +kernel
  obtain ⟨parsed, leads, sourceLeads, succeeded⟩ := computed
  have kept : ¬ nodeFile.IsDiscarded "./lights.json" := by
    intro discarded
    rw [discarded.destination?_eq_none] at leads
    cases leads
  obtain ⟨_, _, invoked⟩ := run_files inPlaceArguments [] nodeFile {}
  obtain ⟨_, _, _, arrives⟩ := invoked inPlace parsed
  obtain ⟨elements, reads, arrived⟩ := arrives (.inl succeeded)
  exact ⟨parsed, leads.trans sourceLeads.symm, succeeded, elements, reads, arrived.holds kept⟩

def nodeDocument : String :=
  "\x7b\"elements\":[\n\x7b\"type\":\"node\",\"id\":1,\"lat\":1.0,\"lon\":2.0," ++
    "\"tags\":\x7b\"name\":\"A\"\x7d\x7d\n]\x7d\n"

/--
The null device holds nothing of the document, although the run succeeds. A full disk cuts off the
source that is its own destination, and a report that cannot be printed leaves a new file, although
these runs fail.
-/
theorem run_files_broken :
    let discarded := run ["reduce", "--local", "lights.json", "--output=/dev/null"] [] nodeFile
    let cut := run inPlaceArguments [] nodeFile { disk? := some ⟨13, .noSpace⟩ }
    let unprinted :=
      run ["characters", "--input", "lights.json", "--output", "strays"] [] nodeFile
        { output? := some ⟨5, .noSpace⟩ }
    (discarded.report.exitCode = 0 ∧ discarded.written = nodeDocument.toUTF8.toList ∧
        discarded.files.read "/dev/null" = .ok []) ∧
      (cut.report.exitCode = failureExit ∧
        cut.files.read "lights.json" = .ok (nodeDocument.toUTF8.toList.take 13)) ∧
      unprinted.report.exitCode = unprintedExit ∧
        nodeFile.read "strays" = .error .notFound ∧
        unprinted.files.read "strays" = .ok unprinted.written := by
  decide +kernel

end LightList.Command
