/-
This file runs the program over the files of a machine.

A disk may take only a part of a document, and the standard output only a part of what is printed.
The log is told whatever becomes of it, so it has no limit here.
-/

import LightList.Command.Job
import LightList.Command.LogFilter

namespace LightList.Command

/-- This is what a run tells: its log, what it prints, and how it ended. -/
structure Report where
  exitCode : Nat
  output : String
  log : List String
  errors : String

/-- This is all that a run tells and leaves behind, and the bytes that its destination took. -/
structure Outcome where
  report : Report
  files : FileTree
  written : List UInt8

/-- The disk takes so many bytes of a document, and the output so many characters. -/
structure Limits where
  disk? : Option Limit := none
  output? : Option Limit := none

/-- Arguments that cannot be used end the program with this code. -/
def usageExit : Nat := 2

def failureExit : Nat := 1

/-- A report that cannot be printed ends the program with this code. -/
def unprintedExit : Nat := 101

/-- This is what of a text arrives at an output that may be limited. -/
def printed (output? : Option Limit) (text : String) : String :=
  String.ofList (Limit.taken output? text.toList)

/-- The environment sets what is shown of a log; what it says wrongly is warned about. -/
structure LogSetting where
  filter : LogFilter
  warnings : String

def LogSetting.ofEnvironment (environment : Environment) : LogSetting :=
  let parsed := LogFilter.parse ((environment.lookup LogFilter.setting).getD LogFilter.standard)
  ⟨parsed.1, String.join (parsed.2.map fun warning => s!"warning: {warning}, ignoring it\n")⟩

/-- These are the lines of a log record, all of them ended. -/
def recordLines (record : LogRecord) : List String := Text.lines (record.line ++ "\n")

/-- The first line of a message stands with its severity and target. -/
def headLine (record : LogRecord) : String := (recordLines record).headD ""

/-- Further lines of a message are set in by four blanks. -/
def furtherLines (record : LogRecord) : String :=
  String.join (((recordLines record).drop 1).map fun line => "    " ++ line ++ "\n")

/-- A text that was asked for is no failure, even if it cannot be printed. -/
def Halt.report (halt : Halt) (setting : LogSetting) (output? : Option Limit) : Report :=
  match halt with
  | shown text => ⟨0, printed output? text, [], setting.warnings⟩
  | incomplete => ⟨usageExit, "", [], setting.warnings ++ programHelpText⟩
  | refused error => ⟨usageExit, "", [], setting.warnings ++ "error: " ++ error.message ++ "\n"⟩

/-- The log shows what the filter lets through. -/
def LogSetting.report (setting : LogSetting) (exitCode : Nat) (output : String)
    (log : List LogRecord) (failure : String) : Report :=
  let shown := log.filter setting.filter.shows
  { exitCode := exitCode
    output := output
    log := shown.map headLine
    errors := setting.warnings ++ String.join (shown.map furtherLines) ++ failure }

def Performance.failed (performance : Performance) (failure : Failure) (setting : LogSetting) :
    Report :=
  setting.report failureExit "" performance.log (failure.text ++ "\n")

/--
What a delivery says of itself is only told when it has arrived. The program breaks off when that
cannot be printed; where it broke off is left out of the message.
-/
def Performance.delivered (performance : Performance) (delivery : Delivery)
    (setting : LogSetting) (output? : Option Limit) : Report :=
  let log := performance.log ++ delivery.log
  let output := printed output? delivery.output
  match Limit.fault? output? delivery.output.toList with
  | none => setting.report 0 output log ""
  | some fault =>
      setting.report unprintedExit output log
        ("failed printing to stdout: " ++ fault.message ++ "\n")

/-- The destination is written last, and only when there is something to write. -/
def Performance.conclude (performance : Performance) (setting : LogSetting) (files : FileTree)
    (limits : Limits) : Outcome :=
  match performance.result with
  | .error failure => ⟨performance.failed failure setting, files, []⟩
  | .ok delivery =>
      let attempt :=
        files.write limits.disk? delivery.destination delivery.document.toUTF8.toList
      match attempt.fault? with
      | some fault =>
          ⟨performance.failed (.writing delivery.destination fault) setting, attempt.files,
            attempt.taken⟩
      | none =>
          ⟨performance.delivered delivery setting limits.output?, attempt.files, attempt.taken⟩

def run (arguments : List String) (environment : Environment) (files : FileTree)
    (limits : Limits := {}) : Outcome :=
  let setting := LogSetting.ofEnvironment environment
  match parse environment arguments with
  | .error halt => ⟨halt.report setting limits.output?, files, []⟩
  | .ok invocation => (invocation.perform files.read).conclude setting files limits

end LightList.Command
