/-
This file does what an invocation asks for.

A job takes the content of its source and gives what is to be written and reported. The document is
complete before its destination is touched. No request is answered here, so a job without a local
source only says where it would ask.
-/

import LightList.Audit
import LightList.Command.Arguments
import LightList.Reduction
import LightList.Source

namespace LightList.Command

inductive Failure where
  | reading (path : String) (error : SourceError)
  | writing (path : String) (fault : FileFault)
  | request

namespace Failure

/-- Each cause comes with what lies beneath it. -/
def text : Failure → String
  | reading path error =>
      "Error: reading " ++ path ++ "\n\nCaused by:\n" ++
        "    0: " ++ indented "       " error.message ++ "\n" ++
        "    1: " ++ indented "       " error.inner
  | writing path fault =>
      "Error: writing " ++ path ++ "\n\nCaused by:\n" ++ "    " ++ indented "    " fault.message
  | request => "Error: Postpass request failed"

end Failure

/-- A document goes to its destination; the rest is reported when it has arrived there. -/
structure Delivery where
  destination : String
  document : String
  log : List LogRecord
  output : String

/-- The log records come before the document is written. -/
structure Performance where
  log : List LogRecord
  result : Except Failure Delivery

def info (message : String) : LogRecord := ⟨.info, programName, message⟩

def debug (message : String) : LogRecord := ⟨.debug, programName, message⟩

def noticeLog (notices : List Notice) : List LogRecord := notices.map Notice.record

namespace Invocation

/-- This is the file that is read; without one the lights come from a request. -/
def source? : Invocation → Option String
  | reduce source _ _ _ => source
  | characters input _ => some input

end Invocation

def reductionLog (elements : List Element) (index : PointIndex) (reduction : Reduction)
    (output : String) : List LogRecord :=
  [info s!"  {elements.length} elements in source",
    debug s!"Indexed {index.size} node coordinates"] ++
    noticeLog reduction.notices ++
    [info s!"  {reduction.droppedUntagged} elements without kept tags dropped",
      info s!"  {reduction.droppedUnplaced} elements without a position dropped",
      info s!"  {reduction.pathsCentred} ways converted to centroid nodes",
      info s!"Writing {output} ...",
      info s!"  {reduction.records.length} elements"]

/-- Both commands say what they read and then read it. -/
def opening (path : String) (reading : Reading) : List LogRecord :=
  info s!"Reading {path} ..." :: noticeLog reading.notices

def reduceFile (path output : String) (reading : Reading) : Performance :=
  match reading.result with
  | .error error => ⟨opening path reading, .error (.reading path error)⟩
  | .ok elements =>
      let index := PointIndex.ofElements elements
      let reduction := Reduction.ofElements elements index
      let document := Record.document reduction.records
      ⟨opening path reading ++ reductionLog elements index reduction output,
        .ok ⟨output, document, [info s!"  {document.utf8ByteSize} bytes"], ""⟩⟩

/-- Values are padded to thirty characters and counts to five. -/
def reportLine (entry : String × Nat) : String :=
  let value := Text.escaped entry.1
  let count := entry.2.repr
  "  " ++ value ++ spaces (30 - value.length) ++ " " ++ spaces (5 - count.length) ++ count ++ "\n"

def reportText (features total : Nat) (output : String) (report : List (String × Nat)) : String :=
  s!"Total non-conforming features: {features}\n" ++
    s!"Non-conforming occurrences (including unplaceable): {total}\n" ++
    s!"Output written to: {output}\n\n" ++
    "Non-conforming character values (sorted by count):\n" ++ String.join (report.map reportLine)

def auditFile (path output : String) (reading : Reading) : Performance :=
  match reading.result with
  | .error error => ⟨opening path reading, .error (.reading path error)⟩
  | .ok elements =>
      let index := PointIndex.ofElements elements
      let audit := Audit.ofElements elements index (.new .lightCharacters)
      let features := audit.features.toList
      ⟨opening path reading ++ noticeLog audit.notices.toList,
        .ok ⟨output, Feature.document features, [],
          reportText features.length audit.tally.total output audit.tally.report⟩⟩

def requestLog (address : String) : List LogRecord :=
  [⟨.info, "lightdata::fetch", s!"Querying Postpass API at {address} ..."⟩]

/-- The content is that of the source; no request is ever answered here. -/
def Invocation.perform (invocation : Invocation)
    (content : String → Except FileFault (List UInt8)) : Performance :=
  match invocation with
  | .reduce (some path) output _ _ => reduceFile path output (Source.reading path (content path))
  | .reduce none _ address _ => ⟨requestLog address, .error .request⟩
  | .characters input output => auditFile input output (Source.reading input (content input))

end LightList.Command
