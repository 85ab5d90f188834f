/-
This file reads the text of a pattern.

The groups still open stand on a stack, together with the branches of a choice that came before the
one that is being read.
-/

import LightList.Pattern.Bracket
import LightList.Text.Letter

namespace LightList.Pattern

/-- These items follow each other; the latest comes first. -/
structure Items where
  start : Place
  items : List Tree

namespace Items

def empty (place : Place) : Items := ⟨place, []⟩

def add (items : Items) (item : Tree) : Items := { items with items := item :: items.items }

def tree (items : Items) (finish : Place) : Tree :=
  .ofItems items.items.reverse ⟨items.start, finish⟩

end Items

/-- An open group keeps what stood before it; the extent is that of its opening. -/
inductive Frame where
  | group (outer : Items) (switches : List Switch) (extent : Extent) (ignoresBlanks : Bool)
  | choice (start : Place) (branches : List Tree)

/-- Parentheses hold settings, or else they open a group. -/
inductive Opening where
  | settings (switches : List Switch) (extent : Extent)
  | group (switches : List Switch) (extent : Extent)

/-- These letters stand for settings. -/
def settingLetters : List (Char × Setting) :=
  [('i', .caseless), ('m', .manyLines), ('s', .dotAll), ('U', .swapGreed), ('u', .unicode),
    ('R', .carriageReturns), ('x', .blanks)]

/-- A sign is a setting, or the dash that switches off all settings after it. -/
structure Sign where
  setting : Option Setting
  extent : Extent

/-- After a dash all settings are switched off. -/
def switchesOf : Bool → List Sign → List Switch
  | _, [] => []
  | isOn, ⟨some setting, _⟩ :: rest => ⟨setting, isOn⟩ :: switchesOf isOn rest
  | _, ⟨none, _⟩ :: rest => switchesOf false rest

/-- A name starts with a letter or an underscore. -/
def isNameStart (character : Char) : Bool := character = '_' || Text.isLetter character

def isNamePart (character : Char) : Bool :=
  isNameStart character || Text.isNumber character ||
    character = '.' || character = '[' || character = ']'

/-- A count is a number of 32 bits. -/
def countLimit : Nat := Nat.pow 2 32

namespace Scanner

def sign : Scanner (Option Setting) := do
  match ← next? with
  | some '-' => return none
  | some letter =>
      match settingLetters.lookup letter with
      | some setting => return some setting
      | none => fail .flagUnknown (← charExtent)
  | none => fail .flagEnded (← charExtent)

/-- No sign may stand twice, and a dash may not be the last. -/
def signsWithin : List Char → List Sign → Scanner (List Sign)
  | [], _ => do fail .flagEnded (← charExtent)
  | _ :: bound, earlier => do
      let next ← next?
      if next = some ':' ∨ next = some ')' then
        match earlier with
        | ⟨none, extent⟩ :: _ => fail .flagDanglingNegation extent
        | _ => return earlier.reverse
      else
        let extent ← charExtent
        let setting ← sign
        match earlier.find? fun other => other.setting = setting with
        | some other =>
            let cause := if setting.isNone then Cause.flagRepeatedNegation else .flagDuplicate
            failAgain cause extent other.extent
        | none =>
            skip
            signsWithin bound (⟨setting, extent⟩ :: earlier)

def signs : Scanner (List Sign) := fun scan => signsWithin ('-' :: scan.rest) [] scan

/-- This reads a name up to the bracket that ends it. -/
def nameWithin (isFirst : Bool) : List Char → List Char → Scanner (List Char)
  | [], taken => return taken.reverse
  | _ :: bound, taken => do
      match ← next? with
      | none | some '>' => return taken.reverse
      | some character =>
          if if isFirst then isNameStart character else isNamePart character then
            skip
            nameWithin false bound (character :: taken)
          else fail .groupNameInvalid (← charExtent)

/-- No two groups have the same name. -/
def addName (name : String) (extent : Extent) : Scanner Unit := fun scan =>
  match scan.names.lookup name with
  | some earlier => .error ⟨.groupNameDuplicate, extent, some earlier⟩
  | none => .ok ((), { scan with names := (name, extent) :: scan.names })

def groupName : Scanner Unit := do
  let start ← here
  let name ← fun scan => nameWithin true scan.rest [] scan
  let extent ← since start
  if (← next?).isNone then fail .groupNameEnded (← charExtent)
  else
    skip
    if name.isEmpty then fail .groupNameEmpty (.point start)
    else addName (String.ofList name) extent

/-- Nothing may be asked about what stands before or after. -/
def lookAround : Scanner Bool := do
  if ← skipIf ['?', '='] then return true
  else if ← skipIf ['?', '!'] then return true
  else if ← skipIf ['?', '<', '='] then return true
  else skipIf ['?', '<', '!']

def nameFollows : Scanner Bool := do
  if ← skipIf ['?', 'P', '<'] then return true else skipIf ['?', '<']

/-- After a question mark come settings, and then a colon if they are those of a group. -/
def signedOpening (extent : Extent) (mark : Place) : Scanner Opening := do
  if (← next?).isNone then fail .groupUnclosed extent
  else
    let signs ← signs
    let switches := switchesOf true signs
    if ← skipIf [':'] then return .group switches extent
    else
      skip
      if signs.isEmpty then fail .repetitionMissing (.point mark)
      else return .settings switches (← since extent.start)

def opening : Scanner Opening := do
  let extent ← charExtent
  let _ ← advance
  if ← lookAround then fail .lookAround (← since extent.start)
  else
    let mark ← here
    if ← nameFollows then
      groupName
      return .group [] extent
    else if ← skipIf ['?'] then signedOpening extent mark
    else return .group [] extent

/-- This takes blanks whether they are ignored elsewhere or not. -/
def countBlanks : Scanner Unit := do
  let _ ← takeAll Text.isBlank

/-- A count that is wrong is only told when it is needed. -/
def count : Scanner (Except Fault Nat) := do
  countBlanks
  let start ← here
  let digits ← takeAll Char.isDigit
  let extent ← since start
  countBlanks
  let value := digits.foldl (fun value digit => value * 10 + (digit.toNat - '0'.toNat)) 0
  if digits.isEmpty then return .error ⟨.countEmpty, extent, none⟩
  else if value < countLimit then return .ok value
  else return .error ⟨.decimalInvalid, extent, none⟩

def settled {Value : Type} (result : Except Fault Value) : Scanner Value := fun scan =>
  match result with
  | .ok value => .ok (value, scan)
  | .error fault => .error fault

/-- A comma leaves the highest count open, or that follows. -/
def countRange (start : Place) : Scanner (Nat × Option Nat) := do
  let least ← count
  match ← next? with
  | none => fail .countUnclosed (← since start)
  | some ',' =>
      if ← advance then
        if (← next?) = some '\x7d' then return (← settled least, none)
        else
          let least ← settled least
          let most ← settled (← count)
          return (least, some most)
      else fail .countUnclosed (← since start)
  | some _ =>
      let exact ← settled least
      return (exact, some exact)

/-- There must be something that can be repeated. -/
def repeatable (items : Items) : Scanner (Tree × Items) := do
  match items.items with
  | [] => fail .repetitionMissing (.point (← here))
  | item :: rest =>
      if item.isRepeatable then return (item, { items with items := rest })
      else fail .repetitionMissing (.point (← here))

def repeated (item : Tree) (rest : Items) (least : Nat) (most : Option Nat) : Scanner Items := do
  return rest.add (.repetition item least most (← since item.extent.start))

/-- A question mark after an operator does not change what is matched. -/
def signRepetition (items : Items) (least : Nat) (most : Option Nat) : Scanner Items := do
  let parts ← repeatable items
  skip
  let _ ← skipIf ['?']
  repeated parts.1 parts.2 least most

def isOrdered (range : Nat × Option Nat) : Bool := range.2.all fun most => range.1 ≤ most

def countRepetition (items : Items) : Scanner Items := do
  let start ← here
  let parts ← repeatable items
  if ← advance then
    let range ← countRange start
    if (← next?) = some '\x7d' then
      let _ ← advance
      let _ ← skipIf ['?']
      if isOrdered range then repeated parts.1 parts.2 range.1 range.2
      else fail .countInvalid (← since start)
    else fail .countUnclosed (← since start)
  else fail .countUnclosed (← since start)

def setIgnoresBlanks (ignoresBlanks : Bool) : Scanner Unit := fun scan =>
  .ok ((), { scan with ignoresBlanks })

/-- Settings hold on; a group starts anew. -/
def openGroup (frames : List Frame) (items : Items) : Scanner (List Frame × Items) := fun scan =>
  match opening scan with
  | .error fault => .error fault
  | .ok (.settings switches extent, later) =>
      let ignoresBlanks := (switch? switches .blanks).getD later.ignoresBlanks
      .ok ((frames, items.add (.settings switches extent)), { later with ignoresBlanks })
  | .ok (.group switches extent, later) =>
      let ignoresBlanks := (switch? switches .blanks).getD later.ignoresBlanks
      .ok ((.group items switches extent later.ignoresBlanks :: frames, .empty later.place),
        { later with ignoresBlanks })

/-- The branches of a choice are completed by the last one. -/
def closeChoice (items : Items) (finish : Place) : List Frame → Tree × List Frame
  | .choice start branches :: frames =>
      (.choice (items.tree finish :: branches).reverse ⟨start, finish⟩, frames)
  | frames => (items.tree finish, frames)

def closeGroup (frames : List Frame) (items : Items) : Scanner (List Frame × Items) := do
  match closeChoice items (← here) frames with
  | (item, .group outer switches extent ignoresBlanks :: rest) =>
      setIgnoresBlanks ignoresBlanks
      skip
      return (rest, outer.add (.group switches item (← since extent.start)))
  | _ => fail .groupUnopened (← charExtent)

def branch (frames : List Frame) (items : Items) : Scanner (List Frame × Items) := do
  let finish ← here
  skip
  let next := Items.empty (← here)
  match frames with
  | .choice start branches :: rest =>
      return (.choice start (items.tree finish :: branches) :: rest, next)
  | _ => return (.choice items.start [items.tree finish] :: frames, next)

/-- At the end no group may be open. -/
def finished (frames : List Frame) (items : Items) : Scanner Tree := do
  match closeChoice items (← here) frames with
  | (item, []) => return item
  | (_, .group _ _ extent _ :: _) => fail .groupUnclosed extent
  | (item, .choice _ _ :: _) => return item

/-- This reads a character, a class without brackets or an assertion. -/
def primitive : Scanner Tree := do
  let extent ← charExtent
  match ← next? with
  | some '\\' => escape
  | some character =>
      skip
      match character with
      | '.' => return .anyChar extent
      | '^' => return .assertion .lineStart extent
      | '$' => return .assertion .lineEnd extent
      | _ => return .literal ⟨character, false, extent⟩
  | none => return .nothing extent

def treeWithin : List Char → List Frame → Items → Scanner Tree
  | [], frames, items => finished frames items
  | _ :: bound, frames, items => do
      skipBlanks
      match ← next? with
      | none => finished frames items
      | some '(' =>
          let opened ← openGroup frames items
          treeWithin bound opened.1 opened.2
      | some ')' =>
          let closed ← closeGroup frames items
          treeWithin bound closed.1 closed.2
      | some '|' =>
          let parts ← branch frames items
          treeWithin bound parts.1 parts.2
      | some '[' => treeWithin bound frames (items.add (← bracket))
      | some '?' => treeWithin bound frames (← signRepetition items 0 (some 1))
      | some '*' => treeWithin bound frames (← signRepetition items 0 none)
      | some '+' => treeWithin bound frames (← signRepetition items 1 none)
      | some '\x7b' => treeWithin bound frames (← countRepetition items)
      | some _ => treeWithin bound frames (items.add (← primitive))

end Scanner

namespace Members

mutual

/-- This is the first class whose nesting leaves no room, given how many levels there are left. -/
def tooDeep? : Nat → Members → Option Extent
  | 0, bracketed _ _ extent => some extent
  | 0, union _ extent => some extent
  | 0, combined _ _ _ extent => some extent
  | room + 1, bracketed _ members _ => tooDeep? room members
  | room + 1, union parts _ => anyTooDeep? room parts
  | room + 1, combined _ left right _ => tooDeep? room left <|> tooDeep? room right
  | _, none _ => Option.none
  | _, literal _ => Option.none
  | _, range _ _ _ => Option.none
  | _, ascii _ _ _ => Option.none
  | _, named _ _ => Option.none

def anyTooDeep? : Nat → List Members → Option Extent
  | _, [] => Option.none
  | room, part :: parts => tooDeep? room part <|> anyTooDeep? room parts

end

end Members

namespace Tree

mutual

/-- This is the first part whose nesting leaves no room, given how many levels there are left. -/
def tooDeep? : Nat → Tree → Option Extent
  | 0, bracketed _ _ extent => some extent
  | 0, repetition _ _ _ extent => some extent
  | 0, group _ _ extent => some extent
  | 0, choice _ extent => some extent
  | 0, sequence _ extent => some extent
  | room + 1, bracketed _ members _ => members.tooDeep? room
  | room + 1, repetition item _ _ _ => tooDeep? room item
  | room + 1, group _ item _ => tooDeep? room item
  | room + 1, choice branches _ => anyTooDeep? room branches
  | room + 1, sequence items _ => anyTooDeep? room items
  | _, nothing _ => none
  | _, settings _ _ => none
  | _, literal _ => none
  | _, anyChar _ => none
  | _, assertion _ _ => none
  | _, named _ _ => none

def anyTooDeep? : Nat → List Tree → Option Extent
  | _, [] => none
  | room, item :: items => tooDeep? room item <|> anyTooDeep? room items

end

/-- So many levels may be nested. -/
def nestingLimit : Nat := 250

/-- This reads a whole pattern. -/
def parse (pattern : List Char) : Except Fault Tree :=
  match Scanner.treeWithin pattern [] (.empty .start) ⟨pattern, .start, false, []⟩ with
  | .error fault => .error fault
  | .ok (tree, _) =>
      match tree.tooDeep? nestingLimit with
      | some extent => .error ⟨.nestedTooDeep nestingLimit, extent, none⟩
      | none => .ok tree

end Tree

end LightList.Pattern
