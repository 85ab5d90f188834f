/-
This file holds what a pattern says, before it is known under which settings it stands.
-/

import LightList.Pattern.Place

namespace LightList.Pattern

inductive Setting where
  | caseless
  | manyLines
  | dotAll
  | swapGreed
  | unicode
  | carriageReturns
  | blanks
deriving DecidableEq

/-- A setting is switched on or off. -/
structure Switch where
  setting : Setting
  isOn : Bool
deriving DecidableEq

/-- This is the first switch of a setting, if there is one. -/
def switch? (switches : List Switch) (setting : Setting) : Option Bool :=
  (switches.find? fun switch => switch.setting = setting).map Switch.isOn

/-- A character that is written as two hexadecimal digits can stand for a byte. -/
structure Literal where
  character : Char
  isByte : Bool
  extent : Extent

/-- These classes hold characters below 128 only. -/
inductive Ascii where
  | alnum
  | alpha
  | ascii
  | blank
  | cntrl
  | digit
  | graph
  | lower
  | print
  | punct
  | space
  | upper
  | word
  | xdigit
deriving DecidableEq

def Ascii.named : List (String × Ascii) :=
  [("alnum", .alnum), ("alpha", .alpha), ("ascii", .ascii), ("blank", .blank), ("cntrl", .cntrl),
    ("digit", .digit), ("graph", .graph), ("lower", .lower), ("print", .print), ("punct", .punct),
    ("space", .space), ("upper", .upper), ("word", .word), ("xdigit", .xdigit)]

/-- These classes need no brackets: a letter stands for some, and others are properties. -/
inductive NamedClass where
  | letter (kind : Ascii) (isNegated : Bool)
  | property (name : String)
deriving DecidableEq

inductive Operation where
  | intersection
  | difference
  | symmetricDifference
deriving DecidableEq

/-- This is what stands in the brackets of a class. -/
inductive Members where
  | none (extent : Extent)
  | literal (value : Literal)
  | range (first last : Literal) (extent : Extent)
  | ascii (kind : Ascii) (isNegated : Bool) (extent : Extent)
  | named (name : NamedClass) (extent : Extent)
  | bracketed (isNegated : Bool) (members : Members) (extent : Extent)
  | union (parts : List Members) (extent : Extent)
  | combined (operation : Operation) (left right : Members) (extent : Extent)

def Members.extent : Members → Extent
  | none extent => extent
  | literal value => value.extent
  | range _ _ extent => extent
  | ascii _ _ extent => extent
  | named _ extent => extent
  | bracketed _ _ extent => extent
  | union _ extent => extent
  | combined _ _ _ extent => extent

/-- These are the edges of words, and the half edges that look to one side only. -/
inductive WordEdge where
  | boundary
  | notBoundary
  | start
  | finish
  | halfStart
  | halfEnd
deriving DecidableEq

inductive Assertion where
  | lineStart
  | lineEnd
  | textStart
  | textEnd
  | word (edge : WordEdge)
deriving DecidableEq

/-- The settings of a group hold inside it; those that stand alone hold up to the end of theirs. -/
inductive Tree where
  | nothing (extent : Extent)
  | settings (switches : List Switch) (extent : Extent)
  | literal (value : Literal)
  | anyChar (extent : Extent)
  | assertion (kind : Assertion) (extent : Extent)
  | named (name : NamedClass) (extent : Extent)
  | bracketed (isNegated : Bool) (members : Members) (extent : Extent)
  | repetition (item : Tree) (least : Nat) (most : Option Nat) (extent : Extent)
  | group (switches : List Switch) (item : Tree) (extent : Extent)
  | choice (branches : List Tree) (extent : Extent)
  | sequence (items : List Tree) (extent : Extent)

namespace Tree

def extent : Tree → Extent
  | nothing extent => extent
  | settings _ extent => extent
  | literal value => value.extent
  | anyChar extent => extent
  | assertion _ extent => extent
  | named _ extent => extent
  | bracketed _ _ extent => extent
  | repetition _ _ _ extent => extent
  | group _ _ extent => extent
  | choice _ extent => extent
  | sequence _ extent => extent

/-- Nothing and settings alone cannot be repeated. -/
def isRepeatable : Tree → Bool
  | nothing _ => false
  | settings _ _ => false
  | _ => true

/-- One item stands for itself. -/
def ofItems (items : List Tree) (extent : Extent) : Tree :=
  match items with
  | [] => nothing extent
  | [item] => item
  | _ => sequence items extent

end Tree

/-- One part stands for itself. -/
def Members.ofParts (parts : List Members) (extent : Extent) : Members :=
  match parts with
  | [] => none extent
  | [part] => part
  | _ => union parts extent

end LightList.Pattern
