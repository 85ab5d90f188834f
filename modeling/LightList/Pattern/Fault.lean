/-
This file holds why a pattern is refused, where, and in which words.

The pattern is shown with carets under the stretches that are at fault.
-/

import LightList.Pattern.Place
import LightList.Text.Split

namespace LightList.Pattern

inductive Cause where
  | classEscape
  | classRange
  | classRangeLiteral
  | classUnclosed
  | decimalEmpty
  | decimalInvalid
  | escapeHexEmpty
  | escapeHexInvalid
  | escapeHexDigit
  | escapeEnded
  | escapeUnknown
  | flagDanglingNegation
  | flagDuplicate
  | flagRepeatedNegation
  | flagEnded
  | flagUnknown
  | groupNameDuplicate
  | groupNameEmpty
  | groupNameInvalid
  | groupNameEnded
  | groupUnclosed
  | groupUnopened
  | nestedTooDeep (limit : Nat)
  | countInvalid
  | countEmpty
  | countUnclosed
  | repetitionMissing
  | boundaryUnclosed
  | boundaryUnknown
  | boundaryOrCountEnded
  | propertyInvalid
  | backreference
  | lookAround
  | unicodeNotAllowed
  | invalidUtf8
  | propertyUnknown
  | propertyValueUnknown
  | escapeClassUnknown
  | caseUnknown
deriving DecidableEq

def Cause.message : Cause → String
  | classEscape => "invalid escape sequence found in character class"
  | classRange => "invalid character class range, the start must be <= the end"
  | classRangeLiteral => "invalid range boundary, must be a literal"
  | classUnclosed => "unclosed character class"
  | decimalEmpty => "decimal literal empty"
  | decimalInvalid => "decimal literal invalid"
  | escapeHexEmpty => "hexadecimal literal empty"
  | escapeHexInvalid => "hexadecimal literal is not a Unicode scalar value"
  | escapeHexDigit => "invalid hexadecimal digit"
  | escapeEnded => "incomplete escape sequence, reached end of pattern prematurely"
  | escapeUnknown => "unrecognized escape sequence"
  | flagDanglingNegation => "dangling flag negation operator"
  | flagDuplicate => "duplicate flag"
  | flagRepeatedNegation => "flag negation operator repeated"
  | flagEnded => "expected flag but got end of regex"
  | flagUnknown => "unrecognized flag"
  | groupNameDuplicate => "duplicate capture group name"
  | groupNameEmpty => "empty capture group name"
  | groupNameInvalid => "invalid capture group character"
  | groupNameEnded => "unclosed capture group name"
  | groupUnclosed => "unclosed group"
  | groupUnopened => "unopened group"
  | nestedTooDeep limit =>
      s!"exceed the maximum number of nested parentheses/brackets ({limit})"
  | countInvalid => "invalid repetition count range, the start must be <= the end"
  | countEmpty => "repetition quantifier expects a valid decimal"
  | countUnclosed => "unclosed counted repetition"
  | repetitionMissing => "repetition operator missing expression"
  | boundaryUnclosed =>
      "special word boundary assertion is either unclosed or contains an invalid character"
  | boundaryUnknown =>
      "unrecognized special word boundary assertion, " ++
        "valid choices are: start, end, start-half or end-half"
  | boundaryOrCountEnded =>
      "found either the beginning of a special word boundary or a bounded repetition " ++
        "on a \\b with an opening brace, but no closing brace"
  | propertyInvalid => "invalid Unicode character class"
  | backreference => "backreferences are not supported"
  | lookAround => "look-around, including look-ahead and look-behind, is not supported"
  | unicodeNotAllowed => "Unicode not allowed here"
  | invalidUtf8 => "pattern can match invalid UTF-8"
  | propertyUnknown => "Unicode property not found"
  | propertyValueUnknown => "Unicode property value not found"
  | escapeClassUnknown =>
      "Unicode-aware Perl class not found (make sure the unicode-perl feature is enabled)"
  | caseUnknown =>
      "Unicode-aware case insensitivity matching is not available " ++
        "(make sure the unicode-case feature is enabled)"

/-- A fault that repeats something points at its first occurrence too. -/
structure Fault where
  cause : Cause
  extent : Extent
  earlier : Option Extent
deriving DecidableEq

namespace Fault

def extents (fault : Fault) : List Extent :=
  match fault.earlier with
  | none => [fault.extent]
  | some earlier =>
      if fault.extent.precedes earlier then [fault.extent, earlier] else [earlier, fault.extent]

/-- These are the carets under one line; the position counts the characters written so far. -/
def carets : Nat → List Extent → List Char
  | _, [] => []
  | position, extent :: rest =>
      let gap := extent.start.column - 1 - position
      let width := max 1 (extent.finish.column - extent.start.column)
      List.replicate gap ' ' ++ List.replicate width '^' ++ carets (position + gap + width) rest

/-- A line feed at the very end does not begin a line that is shown. -/
def shownLines (pattern : List Char) : List (List Char) :=
  let parts := Text.split '\n' pattern
  let ended := parts.dropLast.map Text.lineOf
  match parts.getLast? with
  | none | some [] => ended
  | some last => ended ++ [last]

/-- The number of a line is as wide as the highest number. -/
def lineNumber (width number : Nat) : String :=
  String.ofList (List.replicate (width - number.repr.length) ' ') ++ number.repr ++ ": "

/-- These are the lines of the pattern behind their margins, each with its carets. -/
def shown (fault : Fault) (margin : Nat → String) (lines : List (List Char)) : String :=
  String.join (lines.zipIdx.map fun entry =>
    let start := margin (entry.2 + 1)
    let here := fault.extents.filter fun extent =>
      extent.isOneLine && extent.start.line = entry.2 + 1
    let notes :=
      if here.isEmpty then ""
      else
        String.ofList (List.replicate start.length ' ') ++ String.ofList (carets 0 here) ++ "\n"
    start ++ String.ofList entry.1 ++ "\n" ++ notes)

/-- A stretch over several lines is named by its ends. -/
def spread (extent : Extent) : String :=
  s!"on line {extent.start.line} (column {extent.start.column}) through line " ++
    s!"{extent.finish.line} (column {extent.finish.column - 1})"

def divider : String := String.ofList (List.replicate 79 '~') ++ "\n"

def oneLine (fault : Fault) (pattern : List Char) : String :=
  fault.shown (fun _ => "    ") (shownLines pattern)

/-- Several lines are numbered and stand between two dividers. -/
def manyLines (fault : Fault) (pattern : List Char) : String :=
  let lines := shownLines pattern
  let count := (Text.split '\n' pattern).length
  let spreads := fault.extents.filter fun extent => !extent.isOneLine
  let notes :=
    if spreads.isEmpty then "" else String.intercalate "\n" (spreads.map spread) ++ "\n"
  divider ++ fault.shown (lineNumber count.repr.length) lines ++ divider ++ notes

def text (fault : Fault) (pattern : List Char) : String :=
  let shown := if pattern.contains '\n' then fault.manyLines pattern else fault.oneLine pattern
  "regex parse error:\n" ++ shown ++ "error: " ++ fault.cause.message

end Fault

end LightList.Pattern
