/-
This file holds expressions over characters and finds where they occur in a text.

The gaps of a text are marked from which an expression is to be matched; an expression moves the
marks to the gaps at which a match can end.
-/

import LightList.Pattern.Gap

namespace LightList.Pattern

inductive Expression where
  | empty
  | letter (character : Char)
  | oneOf (test : Char → Bool)
  | look (condition : Look)
  | both (first second : Expression)
  | either (first second : Expression)
  | repeated (item : Expression) (least : Nat) (most : Option Nat)

/-- There is one mark for each gap. -/
abbrev Marks := List Bool

namespace Marks

/-- A mark moves over a character that passes the test; no mark comes to the first gap. -/
def advance (test : Char → Bool) (characters : List Char) (marks : Marks) : Marks :=
  false :: List.zipWith (fun mark character => mark && test character) marks characters

/-- A mark stays where the look holds. -/
def keep (look : Look) (gaps : List Gap) (marks : Marks) : Marks :=
  List.zipWith (fun mark gap => mark && look.holds gap) marks gaps

def union (first second : Marks) : Marks := List.zipWith or first second

/-- Without any mark left there is nothing to move. -/
def times (move : Marks → Marks) : Nat → Marks → Marks
  | 0, marks => marks
  | count + 1, marks => if marks.any id then times move count (move marks) else marks

/-- These are the marks after any number of moves up to the given one. -/
def upTo (move : Marks → Marks) : Nat → Marks → Marks
  | 0, marks => marks
  | count + 1, marks =>
      let more := marks.union (move marks)
      if more = marks then marks else upTo move count more

end Marks

namespace Expression

/-- More moves than there are gaps change nothing: some of them would stay at their gap. -/
def after (characters : List Char) (gaps : List Gap) : Expression → Marks → Marks
  | empty, marks => marks
  | letter expected, marks => marks.advance (· = expected) characters
  | oneOf test, marks => marks.advance test characters
  | look condition, marks => marks.keep condition gaps
  | both first second, marks =>
      second.after characters gaps (first.after characters gaps marks)
  | either first second, marks =>
      (first.after characters gaps marks).union (second.after characters gaps marks)
  | repeated item least most, marks =>
      let room := characters.length + 1
      let started := marks.times (item.after characters gaps) (min least room)
      let further := (most.map fun most => min (most - least) room).getD room
      started.upTo (item.after characters gaps) further

/-- A match may start at any gap. -/
def occursIn (expression : Expression) (characters : List Char) : Bool :=
  let marks := List.replicate (characters.length + 1) true
  (expression.after characters (Gap.ofList none characters) marks).any id

/-- This expression takes no characters. -/
def isBare : Expression → Bool
  | empty => true
  | letter _ => false
  | oneOf _ => false
  | look _ => true
  | both first second => first.isBare && second.isBare
  | either first second => first.isBare && second.isBare
  | repeated item _ _ => item.isBare

/-- This expression can be matched without any character. -/
def isNullable : Expression → Bool
  | empty => true
  | letter _ => false
  | oneOf _ => false
  | look _ => true
  | both first second => first.isNullable && second.isNullable
  | either first second => first.isNullable || second.isNullable
  | repeated item least _ => least = 0 || item.isNullable

/-- This is a repetition; what takes no characters need not be repeated more than once. -/
def ofRepetition (item : Expression) (least : Nat) (most : Option Nat) : Expression :=
  let least := if item.isBare then min least 1 else least
  let most := if item.isBare then some ((most.map fun most => min most 1).getD 1) else most
  if least = 0 ∧ most = some 0 then empty else repeated item least most

def ofItems : List Expression → Expression
  | [] => empty
  | [item] => item
  | item :: rest => both item (ofItems rest)

/-- Nothing is matched by a choice without branches. -/
def ofBranches : List Expression → Expression
  | [] => oneOf fun _ => false
  | [branch] => branch
  | branch :: rest => either branch (ofBranches rest)

/-- Words of all alphabets are asked for. -/
def asksForUnicodeWords : Expression → Bool
  | empty => false
  | letter _ => false
  | oneOf _ => false
  | look condition => condition.isUnicodeWord
  | both first second => first.asksForUnicodeWords || second.asksForUnicodeWords
  | either first second => first.asksForUnicodeWords || second.asksForUnicodeWords
  | repeated item _ _ => item.asksForUnicodeWords

end Expression

end LightList.Pattern
