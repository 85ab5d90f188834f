/-
This file holds what the library reports while it works, and how a log shows it.
-/

import LightList.Element
import LightList.Text.Escaped

namespace LightList

inductive Severity where
  | error
  | warn
  | info
  | debug
  | trace
deriving DecidableEq

namespace Severity

def name : Severity → String
  | error => "ERROR"
  | warn => "WARN"
  | info => "INFO"
  | debug => "DEBUG"
  | trace => "TRACE"

/-- A lower rank is more severe. -/
def rank : Severity → Nat
  | error => 1
  | warn => 2
  | info => 3
  | debug => 4
  | trace => 5

end Severity

structure LogRecord where
  severity : Severity
  target : String
  message : String

/-- This is the line of a log without its time stamp. -/
def LogRecord.line (record : LogRecord) : String :=
  record.severity.name ++ " " ++ record.target ++ ": " ++ record.message

inductive Encoding where
  | pbf
  | overpass
deriving DecidableEq

def Encoding.name : Encoding → String
  | .pbf => "PBF"
  | .overpass => "Overpass JSON"

inductive Notice where
  | reading (path : String) (encoding : Encoding)
  | featuresReturned (count : Nat)
  | featureSkipped (id : ElementId)
  | elementUnplaced (id : ElementId)
  | characterUnplaced (id : ElementId) (character : String)

def Notice.record : Notice → LogRecord
  | .reading path encoding =>
      ⟨.debug, "seamark::source", s!"reading {path} as {encoding.name}"⟩
  | .featuresReturned count => ⟨.debug, "seamark::source", s!"{count} features returned"⟩
  | .featureSkipped id =>
      ⟨.warn, "seamark::source", s!"feature {id.toInt}: no point geometry, skipped"⟩
  | .elementUnplaced id =>
      ⟨.debug, "seamark::records", s!"element {id.toInt} has no resolvable position"⟩
  | .characterUnplaced id character =>
      ⟨.debug, "seamark::features",
        s!"element {id.toInt}: non-conforming {Text.escaped character} but unplaceable"⟩

end LightList
