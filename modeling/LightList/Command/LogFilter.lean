/-
This file decides which log records are shown.

A filter is a list of directives. The one with the longest target that the record starts with
decides which severities are shown; a directive without a target matches every record.
-/

import LightList.Notice
import LightList.Pattern
import LightList.Text.Blank
import LightList.Text.Split

namespace LightList.Command

/-- The rank is that of the least severe records shown; rank zero shows none. -/
structure Directive where
  target : Option String
  rank : Nat
deriving DecidableEq

/-- A pattern, if there is one, must occur in the message. -/
structure LogFilter where
  directives : List Directive
  pattern : Option Pattern

namespace LogFilter

def highestRank : Nat := 5

def errorRank : Nat := 1

def ranks : List (String × Nat) :=
  [("OFF", 0), ("ERROR", 1), ("WARN", 2), ("INFO", 3), ("DEBUG", 4), ("TRACE", 5)]

/-- Level names are read in any case of letters. -/
def rank? (name : String) : Option Nat :=
  ranks.lookup (String.ofList (name.toList.map Char.toUpper))

/-- A name alone is a level for all targets, or else a target with all levels. -/
def directive? (spec : List Char) : Except String Directive :=
  match Text.split '=' spec with
  | [name] =>
      match rank? (String.ofList name) with
      | some rank => .ok ⟨none, rank⟩
      | none => .ok ⟨some (String.ofList name), highestRank⟩
  | [target, level] =>
      let name := String.ofList (Text.trim level)
      if name = "" then .ok ⟨some (String.ofList target), highestRank⟩
      else
        match rank? name with
        | some rank => .ok ⟨some (String.ofList target), rank⟩
        | none => .error s!"invalid logging spec '{name}'"
  | _ => .error ("invalid logging spec '" ++ String.ofList spec ++ "'")

/-- A later directive replaces the one with the same target. -/
def place (directive : Directive) (directives : List Directive) : List Directive :=
  if directives.any fun earlier => earlier.target = directive.target then
    directives.map fun earlier =>
      if earlier.target = directive.target then directive else earlier
  else directives ++ [directive]

def collect : List (List Char) → List Directive → List String → List Directive × List String
  | [], directives, warnings => (directives, warnings)
  | spec :: rest, directives, warnings =>
      if spec.isEmpty then collect rest directives warnings
      else
        match directive? spec with
        | .ok directive => collect rest (place directive directives) warnings
        | .error warning => collect rest directives (warnings ++ [warning])

def targetLength (directive : Directive) : Nat :=
  match directive.target with
  | none => 0
  | some target => target.utf8ByteSize

/-- Without any directive only errors are shown. -/
def ofDirectives (directives : List Directive) (pattern : Option Pattern) : LogFilter :=
  let chosen := if directives.isEmpty then [⟨none, errorRank⟩] else directives
  let sorted := chosen.mergeSort fun first second =>
    decide (targetLength first ≤ targetLength second)
  ⟨sorted, pattern⟩

/-- Directives are separated by commas. -/
def ofList (specs : List Char) (pattern : Option Pattern) (warnings : List String) :
    LogFilter × List String :=
  let found := collect ((Text.split ',' specs).map Text.trim) [] []
  (ofDirectives found.1 pattern, found.2 ++ warnings)

/-- A pattern may follow after a slash; one that is refused is left out. -/
def parse (spec : String) : LogFilter × List String :=
  match Text.split '/' spec.toList with
  | [directives] => ofList directives none []
  | [directives, text] =>
      match Pattern.ofText (String.ofList text) with
      | .ok pattern => ofList directives (some pattern) []
      | .error refusal =>
          ofList directives none [s!"invalid regex filter - {refusal.message}"]
  | _ => (ofDirectives [] none, [s!"invalid logging spec '{spec}' (too many '/'s)"])

def matchesTarget (directive : Directive) (record : LogRecord) : Bool :=
  match directive.target with
  | none => true
  | some target => target.toList.isPrefixOf record.target.toList

def shows (filter : LogFilter) (record : LogRecord) : Bool :=
  let level :=
    match filter.directives.reverse.find? fun directive => matchesTarget directive record with
    | none => 0
    | some directive => directive.rank
  record.severity.rank ≤ level &&
    filter.pattern.all fun pattern => pattern.occursIn record.message

/-- The environment sets the filter under this name. -/
def setting : String := "RUST_LOG"

/-- This is the filter when the environment sets none. -/
def standard : String := "info"

end LogFilter

end LightList.Command
