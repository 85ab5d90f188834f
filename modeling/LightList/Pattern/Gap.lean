/-
This file holds the gaps between characters and what can be asked about them.
-/

import LightList.Pattern.Tree

namespace LightList.Pattern

/-- A gap lies before, between or behind the characters of a text. -/
structure Gap where
  before : Option Char
  after : Option Char
deriving DecidableEq

namespace Gap

/-- These are all gaps from a place on, given the character before it. -/
def ofList : Option Char → List Char → List Gap
  | before, [] => [⟨before, none⟩]
  | before, character :: rest => ⟨before, some character⟩ :: ofList (some character) rest

end Gap

/-- Carriage returns end lines too where that is set; then a line feed after one belongs to it. -/
inductive Look where
  | textStart
  | textEnd
  | lineStart (withReturns : Bool)
  | lineEnd (withReturns : Bool)
  | word (edge : WordEdge)
  | unicodeWord (edge : WordEdge)
deriving DecidableEq

/-- Words consist of letters, digits and underscores. -/
def isWordPart (character : Char) : Bool := character.isAlphanum || character = '_'

namespace WordEdge

def holds (edge : WordEdge) (before after : Bool) : Bool :=
  match edge with
  | boundary => before != after
  | notBoundary => before == after
  | start => !before && after
  | finish => before && !after
  | halfStart => !before
  | halfEnd => !after

end WordEdge

namespace Look

/-- The words of all alphabets are not known, so no gap is said to be at their edge. -/
def holds (look : Look) (gap : Gap) : Bool :=
  match look with
  | textStart => gap.before.isNone
  | textEnd => gap.after.isNone
  | lineStart false => gap.before.isNone || gap.before = some '\n'
  | lineStart true =>
      gap.before.isNone || gap.before = some '\n' ||
        (gap.before = some '\r' && gap.after != some '\n')
  | lineEnd false => gap.after.isNone || gap.after = some '\n'
  | lineEnd true =>
      gap.after.isNone || gap.after = some '\r' ||
        (gap.after = some '\n' && gap.before != some '\r')
  | word edge => edge.holds (gap.before.any isWordPart) (gap.after.any isWordPart)
  | unicodeWord _ => false

def isUnicodeWord : Look → Bool
  | unicodeWord _ => true
  | _ => false

end Look

end LightList.Pattern
