/-
This file runs the program in the current directory.
-/

import LightList.Command.Run

namespace LightList.Program

open Command

/-- These are the settings that the program looks for. -/
def settingNames : List String :=
  LogFilter.setting ::
    commands.flatMap fun command => command.options.map fun spec => spec.setting

def currentEnvironment : IO Environment :=
  settingNames.filterMapM fun name => do
    return (← IO.getEnv name).map fun value => (name, value)

/-- The number of a fault may come negated. -/
def faultNumber (code : UInt32) : Nat := min code.toNat (0 - code).toNat

/-- What the system says of a file is told by its number. -/
def faultOf (code : UInt32) (message : String) : FileFault :=
  match faultNumber code with
  | 2 => .notFound
  | 20 => .notDirectory
  | 21 => .isDirectory
  | 28 => .noSpace
  | 36 => .nameTooLong
  | number => .other s!"{message} (os error {number})"

def fileFault : IO.Error → FileFault
  | .noFileOrDirectory _ code message
  | .inappropriateType _ code message
  | .resourceExhausted _ code message
  | .invalidArgument _ code message
  | .permissionDenied _ code message
  | .otherError code message => faultOf code message
  | other => .other other.toString

def readContent (path : String) : IO (Except FileFault (List UInt8)) := do
  try
    return .ok (← IO.FS.readBinFile path).toList
  catch failure => return .error (fileFault failure)

def writeContent (path content : String) : IO (Except FileFault Unit) := do
  try
    return .ok (← IO.FS.writeBinFile path content.toUTF8)
  catch failure => return .error (fileFault failure)

def sourceContent : Option String → IO (Except FileFault (List UInt8))
  | none => return .error .notFound
  | some path => readContent path

/-- A text that cannot be printed is given up, and the fault is told. -/
def printText (text : String) : IO (Option Limit) := do
  try
    IO.print text
    (← IO.getStdout).flush
    return none
  catch failure => return some ⟨0, fileFault failure⟩

/-- The destination is written last, and only when there is something to write. -/
def conclude (performance : Performance) (setting : LogSetting) : IO Report := do
  match performance.result with
  | .error failure => return performance.failed failure setting
  | .ok delivery =>
      match ← writeContent delivery.destination delivery.document with
      | .error fault => return performance.failed (.writing delivery.destination fault) setting
      | .ok _ => return performance.delivered delivery setting (← printText delivery.output)

def reportOf (arguments : List String) : IO Report := do
  let environment ← currentEnvironment
  let setting := LogSetting.ofEnvironment environment
  match parse environment arguments with
  | .error halt =>
      let report := halt.report setting none
      discard <| printText report.output
      return report
  | .ok invocation =>
      let content ← sourceContent invocation.source?
      conclude (invocation.perform fun _ => content) setting

/-- The log is told as far as it can be. -/
def tellErrors (report : Report) : IO Unit := do
  try
    for line in report.log do
      IO.eprintln line
    IO.eprint report.errors
  catch _ => return

end LightList.Program

def main (arguments : List String) : IO UInt32 := do
  let report ← LightList.Program.reportOf arguments
  LightList.Program.tellErrors report
  return report.exitCode.toUInt32
