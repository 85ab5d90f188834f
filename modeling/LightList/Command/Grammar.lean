/-
This file holds the commands of the program and the options that each of them takes.
-/

namespace LightList.Command

/-- This says which values an option accepts. -/
inductive ValueRule where
  | path
  | text
  | seconds
deriving DecidableEq

/-- A setting of the environment, or else a fallback, stands in for an option that is not given. -/
structure OptionSpec where
  name : String
  placeholder : String
  rule : ValueRule
  help : String
  setting : String
  fallback : Option String
deriving DecidableEq

/-- This is how messages show an option. -/
def OptionSpec.display (spec : OptionSpec) : String :=
  "--" ++ spec.name ++ " <" ++ spec.placeholder ++ ">"

structure CommandSpec where
  name : String
  help : String
  options : List OptionSpec
deriving DecidableEq

def CommandSpec.option? (command : CommandSpec) (name : String) : Option OptionSpec :=
  command.options.find? fun spec => spec.name == name

def programName : String := "lightdata"

def programVersion : String := "0.1.0"

def programHelp : String :=
  "`lightdata` - lighthouse/beacon data maintenance for the light map"

def localOption : OptionSpec :=
  { name := "local"
    placeholder := "LOCAL"
    rule := .path
    help := "Process a local Overpass JSON (or .pbf) file instead of querying Postpass"
    setting := "LIGHTDATA_LOCAL"
    fallback := none }

def reducedOption : OptionSpec :=
  { name := "output"
    placeholder := "OUTPUT"
    rule := .path
    help := "Destination of the reduced dataset"
    setting := "LIGHTDATA_REDUCED"
    fallback := some "data-reduced.json" }

def addressOption : OptionSpec :=
  { name := "postpass-url"
    placeholder := "POSTPASS_URL"
    rule := .text
    help := "Postpass interpreter endpoint"
    setting := "LIGHTDATA_POSTPASS_URL"
    fallback := some "https://postpass.geofabrik.de/api/0.2/interpreter" }

def timeoutOption : OptionSpec :=
  { name := "timeout-secs"
    placeholder := "TIMEOUT_SECS"
    rule := .seconds
    help := "Give up on the Postpass request after this many seconds"
    setting := "LIGHTDATA_TIMEOUT_SECS"
    fallback := some "300" }

def inputOption : OptionSpec :=
  { name := "input"
    placeholder := "INPUT"
    rule := .path
    help := "Full Overpass JSON (or .pbf) source"
    setting := "LIGHTDATA_FULL"
    fallback := some "data-full.json" }

def featuresOption : OptionSpec :=
  { name := "output"
    placeholder := "OUTPUT"
    rule := .path
    help := "Destination GeoJSON file"
    setting := "LIGHTDATA_NON_CONFORMING"
    fallback := some "non-conforming-characters.geojson" }

def reduceCommand : CommandSpec :=
  { name := "reduce"
    help := "Fetch (or read) lights and write the reduced, id-sorted dataset"
    options := [localOption, reducedOption, addressOption, timeoutOption] }

def charactersCommand : CommandSpec :=
  { name := "characters"
    help := "Report elements whose light character is not a known code"
    options := [inputOption, featuresOption] }

def commands : List CommandSpec := [reduceCommand, charactersCommand]

def helpCommandName : String := "help"

def helpCommandHelp : String := "Print this message or the help of the given subcommand(s)"

def isCommandName (name : String) : Bool :=
  name == helpCommandName || commands.any fun command => command.name == name

end LightList.Command
