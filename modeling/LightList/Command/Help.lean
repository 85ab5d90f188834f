/-
This file writes the help of the program and of its commands.

Each section is a table whose left column is as wide as its longest entry.
-/

import LightList.Command.Grammar

namespace LightList.Command

abbrev Environment := List (String × String)

def spaces (count : Nat) : String := String.ofList (List.replicate count ' ')

/-- Further lines of a text start under its first one. -/
def indented (margin text : String) : String :=
  String.join (text.toList.map fun character =>
    if character = '\n' then "\n" ++ margin else character.toString)

/-- Two blanks stand before the left column and two after its longest entry. -/
def table (rows : List (String × String)) : String :=
  let width := (rows.map fun row => row.1.length).foldl max 0
  String.join (rows.map fun row =>
    "  " ++ row.1 ++ spaces (width - row.1.length) ++ "  " ++
      indented (spaces (width + 4)) row.2 ++ "\n")

def helpRow : String × String := ("-h, --help", "Print help")

def versionRow : String × String := ("-V, --version", "Print version")

/-- The value in the environment is shown even when it is not used. -/
def OptionSpec.row (spec : OptionSpec) (environment : Environment) : String × String :=
  let value := (environment.lookup spec.setting).getD ""
  let fallback :=
    match spec.fallback with
    | none => ""
    | some text => " [default: " ++ text ++ "]"
  ("    " ++ spec.display,
    spec.help ++ " [env: " ++ spec.setting ++ "=" ++ value ++ "]" ++ fallback)

def CommandSpec.helpText (command : CommandSpec) (environment : Environment) : String :=
  command.help ++ "\n\nUsage: " ++ programName ++ " " ++ command.name ++
    " [OPTIONS]\n\nOptions:\n" ++
    table ((command.options.map fun spec => spec.row environment) ++ [helpRow])

def programHelpText : String :=
  programHelp ++ "\n\nUsage: " ++ programName ++ " <COMMAND>\n\nCommands:\n" ++
    table ((commands.map fun command => (command.name, command.help)) ++
      [(helpCommandName, helpCommandHelp)]) ++
    "\nOptions:\n" ++ table [helpRow, versionRow]

def helpCommandHelpText : String :=
  helpCommandHelp ++ "\n\nUsage: " ++ programName ++ " " ++ helpCommandName ++
    " [COMMAND]...\n\nArguments:\n" ++
    table [("[COMMAND]...", "Print help for the subcommand(s)")]

def versionText : String := programName ++ " " ++ programVersion ++ "\n"

end LightList.Command
