/-
This file shows how structures are read, both as objects of their fields and as lists of them.

In an object every field is looked at on its own: it counts how often its name occurs, whatever stands
between. In a list the fields are taken from the front.
-/

import LightList.Proofs.Json.Decoding
import Mathlib.Logic.Equiv.Defs

namespace LightList.Json

namespace Written

/-- A name that occurs once gives its value and an absent one none; it must not occur again. -/
def field? {Value : Type} (name : String) (value? : Written → Option Value)
    (members : List (String × Written)) : Option (Option Value) :=
  match members.filter fun entry => entry.1 = name with
  | [] => some none
  | [entry] => (value? entry.2).map some
  | _ => none

/-- This is what one member makes of a field that may have been met before. -/
def meet? {Value : Type} (name : String) (value? : Written → Option Value)
    (earlier : Option Value) (entry : String × Written) : Option (Option Value) :=
  if entry.1 = name then
    match earlier with
    | some _ => none
    | none => (value? entry.2).map some
  else some earlier

section Fields

variable {Value : Type} (name : String) (value? : Written → Option Value)

/-- A member of another name leaves a field as it is. -/
theorem meet?_of_ne {key : String} (different : key ≠ name) (tree : Written)
    (earlier : Option Value) : meet? name value? earlier (key, tree) = some earlier :=
  if_neg different

/-- A field that is there already must not come again. -/
theorem foldlM_meet?_some (members : List (String × Written)) (earlier : Value) :
    members.foldlM (meet? name value?) (some earlier) =
      if (members.filter fun entry => entry.1 = name) = [] then some (some earlier) else none := by
  induction members with
  | nil => rfl
  | cons entry rest inductionHypothesis =>
      rw [List.foldlM_cons, List.filter_cons]
      by_cases same : entry.1 = name
      · simp [meet?, same]
      · simp only [meet?, if_neg same, decide_eq_false same, if_neg Bool.false_ne_true]
        exact inductionHypothesis

/-- What the members make of a field one by one is decided by how often its name occurs. -/
theorem foldlM_meet? (members : List (String × Written)) :
    members.foldlM (meet? name value?) none = field? name value? members := by
  induction members with
  | nil => rfl
  | cons entry rest inductionHypothesis =>
      rw [List.foldlM_cons, field?, List.filter_cons]
      by_cases same : entry.1 = name
      · rw [if_pos (decide_eq_true same), meet?, if_pos same]
        cases valued : value? entry.2 with
        | none => cases rest.filter fun entry => entry.1 = name <;> simp [valued]
        | some value =>
            change rest.foldlM (meet? name value?) (some value) = _
            rw [foldlM_meet?_some]
            cases rest.filter fun entry => entry.1 = name <;> simp [valued]
      · rw [meet?, if_neg same]
        simp only [decide_eq_false same, if_neg Bool.false_ne_true]
        exact inductionHypothesis

end Fields

/-- The fields of a structure stand in an object or in a list. -/
def record? {Value : Type} (object? : List (String × Written) → Option Value)
    (list? : List Written → Option Value) : Written → Option Value
  | .object members => object? members
  | .array items => list? items
  | _ => none

/-- Values are taken from the front of a list. -/
abbrev Taking (Value : Type) := StateT (List Written) Option Value

/-- This takes the next value of a list. -/
def takeItem {Value : Type} (value? : Written → Option Value) : Taking Value
  | [] => none
  | item :: more => (value? item).map fun value => (value, more)

/-- This takes the next value of a list if there is one. -/
def takeItemOr {Value : Type} (value? : Written → Option Value) (absent : Value) :
    Taking Value
  | [] => some (absent, [])
  | item :: more => (value? item).map fun value => (value, more)

/-- This takes a whole list. -/
def takeAll? {Value : Type} (taking : Taking Value) (items : List Written) : Option Value :=
  match taking items with
  | some (value, []) => some value
  | _ => none

end Written

namespace Reader

open Written

section Objects

variable {Value : Type} {tree : Written} {before after core rest : List UInt8}

/-- A field is read when it is met first and refused when it is met again. -/
theorem outcome?_once (name : String) (earlier : Option Value) {reader : Reader Value}
    {value? : Written → Option Value} (reads : Reads reader value?) (isBefore : IsGap before)
    (isAfter : IsGap after) (writes : Writes tree core) (delimited : Delimited rest) :
    outcome? (once name earlier reader) (before ++ colon :: (after ++ (core ++ rest))) =
      (meet? name value? earlier (name, tree)).map fun value => (value, rest) := by
  cases earlier with
  | some value =>
      rw [meet?, if_pos rfl]
      rfl
  | none =>
      rw [once, outcome?_bind, outcome?_takeColon isBefore, Option.bind_some, outcome?_map,
        reads tree core after rest writes isAfter delimited, meet?, if_pos rfl, Option.map_map,
        Option.map_map]
      rfl

/-- A record is read from an object or from a list, when both forms are. -/
theorem reads_record (name : String) {ofObject ofList : Reader Value}
    {object? : List (String × Written) → Option Value} {list? : List Written → Option Value}
    (objects : ∀ members inner rest, WritesList (WritesMember Writes) true members inner →
      outcome? ofObject (inner ++ closeBrace :: rest) =
        (object? members).map fun value => (value, closeBrace :: rest))
    (lists : ∀ items inner rest, WritesList Writes true items inner →
      outcome? (enclosed ofList closeList) (inner ++ closeBracket :: rest) =
        (list? items).map fun value => (value, rest)) :
    Reads (record name ofObject ofList) (record? object? list?) := by
  intro tree core gap rest writes isGap delimited
  cases tree with
  | array items =>
      cases writes with
      | @array _ inner writesItems =>
          simp only [List.cons_append, List.append_assoc, List.nil_append]
          rw [record, outcome?_token isGap rfl]
          dsimp only
          rw [if_pos rfl, outcome?_bind, outcome?_skipByte, Option.bind_some, List.tail_cons,
            lists items inner rest writesItems]
          rfl
  | object members =>
      cases writes with
      | @object _ inner writesMembers =>
          have notList : openBrace ≠ openBracket := by decide
          simp only [List.cons_append, List.append_assoc, List.nil_append]
          rw [record, outcome?_token isGap rfl]
          dsimp only
          rw [if_neg notList, if_pos rfl, outcome?_bind, outcome?_skipByte, Option.bind_some,
            List.tail_cons, outcome?_enclosed, objects members inner rest writesMembers, record?]
          cases object? members with
          | none => rfl
          | some value =>
              simp only [Option.map_some, Option.bind_some]
              rw [outcome?_closeObject]
              rfl
  | _ =>
      apply outcome?_otherwise (fun shape => shape ≠ .array ∧ shape ≠ .object) _ writes isGap
      · constructor
        · intro same
          cases same
        · intro same
          cases same
      intro byte input other
      have notBracket : byte ≠ openBracket := by
        rintro rfl
        exact other.1 rfl
      have notBrace : byte ≠ openBrace := by
        rintro rfl
        exact other.2 rfl
      dsimp only
      rw [if_neg notBracket, if_neg notBrace, outcome?_wrongType]

/-- An object of one field is looked through for the name of that field. -/
theorem outcome?_members_one {field : Option Value → String → Reader (Option Value)}
    {name : String} {reader : Reader Value} {value? : Written → Option Value}
    {members : List (String × Written)} {inner : List UInt8} (reads : Reads reader value?)
    (known : ∀ earlier, field earlier name = once name earlier reader)
    (unknown : ∀ earlier key, key ≠ name → field earlier key = do
      unknownField
      return earlier)
    (writes : WritesList (WritesMember Writes) true members inner) :
    outcome? (Reader.members field none) (inner ++ closeBrace :: rest) =
      (field? name value? members).map fun value => (value, closeBrace :: rest) := by
  rw [← foldlM_meet?]
  apply outcome?_members (meet? name value?) _ writes
  intro earlier key tree before after core rest isBefore isAfter writesValue delimited
  by_cases same : key = name
  · subst same
    rw [known]
    exact outcome?_once key earlier reads isBefore isAfter writesValue delimited
  · rw [unknown earlier key same, outcome?_bind,
      outcome?_unknownField isBefore isAfter writesValue delimited, meet?_of_ne name _ same]
    rfl

end Objects

section TwoFields

variable {First Second Draft : Type} (parts : Draft ≃ Option First × Option Second)
  {firstName secondName : String}
  {first? : Written → Option First} {second? : Written → Option Second}
  {members : List (String × Written)} {inner rest : List UInt8}

/-- This is what one member makes of two fields that may have been met before. -/
def meetBoth? (firstName secondName : String) (first? : Written → Option First)
    (second? : Written → Option Second) (draft : Draft) (entry : String × Written) :
    Option Draft :=
  (meet? firstName first? (parts draft).1 entry).bind fun first =>
    (meet? secondName second? (parts draft).2 entry).map fun second => parts.symm (first, second)

/-- Over all members each field is decided on its own. -/
theorem foldlM_meetBoth? (draft : Draft) :
    members.foldlM (meetBoth? parts firstName secondName first? second?) draft =
      (members.foldlM (meet? firstName first?) (parts draft).1).bind fun first =>
        (members.foldlM (meet? secondName second?) (parts draft).2).map fun second =>
          parts.symm (first, second) := by
  induction members generalizing draft with
  | nil =>
      change some draft = some (parts.symm (parts draft))
      rw [Equiv.symm_apply_apply]
  | cons entry rest inductionHypothesis =>
      rw [List.foldlM_cons, List.foldlM_cons, List.foldlM_cons, meetBoth?]
      cases meet? firstName first? (parts draft).1 entry with
      | none => rfl
      | some first =>
          cases meet? secondName second? (parts draft).2 entry with
          | none => simp
          | some second =>
              have continued := inductionHypothesis (parts.symm (first, second))
              rw [Equiv.apply_symm_apply] at continued
              exact continued

/-- In an object of two fields each is looked for on its own. -/
theorem outcome?_members_two {field : Draft → String → Reader Draft}
    {firstReader : Reader First} {secondReader : Reader Second} (draft : Draft)
    (empty : parts draft = (none, none)) (different : firstName ≠ secondName)
    (readsFirst : Reads firstReader first?) (readsSecond : Reads secondReader second?)
    (knownFirst : ∀ draft, field draft firstName = do
      let first ← once firstName (parts draft).1 firstReader
      return parts.symm (first, (parts draft).2))
    (knownSecond : ∀ draft, field draft secondName = do
      let second ← once secondName (parts draft).2 secondReader
      return parts.symm ((parts draft).1, second))
    (unknown : ∀ draft key, key ≠ firstName → key ≠ secondName → field draft key = do
      unknownField
      return draft)
    (writes : WritesList (WritesMember Writes) true members inner) :
    outcome? (Reader.members field draft) (inner ++ closeBrace :: rest) =
      (field? firstName first? members).bind fun first =>
        (field? secondName second? members).map fun second =>
          (parts.symm (first, second), closeBrace :: rest) := by
  have step (draft : Draft) (key : String) (tree : Written)
      (before after core rest : List UInt8) (isBefore : IsGap before) (isAfter : IsGap after)
      (writesValue : Writes tree core) (delimited : Delimited rest) :
      outcome? (field draft key) (before ++ colon :: (after ++ (core ++ rest))) =
        (meetBoth? parts firstName secondName first? second? draft (key, tree)).map
          fun draft => (draft, rest) := by
    by_cases isFirst : key = firstName
    · subst isFirst
      rw [knownFirst, outcome?_bind,
        outcome?_once key _ readsFirst isBefore isAfter writesValue delimited, meetBoth?,
        meet?_of_ne secondName _ different]
      cases meet? key first? (parts draft).1 (key, tree) <;> rfl
    · by_cases isSecond : key = secondName
      · subst isSecond
        rw [knownSecond, outcome?_bind,
          outcome?_once key _ readsSecond isBefore isAfter writesValue delimited, meetBoth?,
          meet?_of_ne firstName _ isFirst]
        cases meet? key second? (parts draft).2 (key, tree) <;> rfl
      · rw [unknown draft key isFirst isSecond, outcome?_bind,
          outcome?_unknownField isBefore isAfter writesValue delimited, meetBoth?,
          meet?_of_ne firstName _ isFirst, meet?_of_ne secondName _ isSecond]
        change some (draft, rest) = some (parts.symm (parts draft), rest)
        rw [Equiv.symm_apply_apply]
  rw [outcome?_members _ step writes, foldlM_meetBoth?, empty, foldlM_meet?, foldlM_meet?]
  cases field? firstName first? members with
  | none => rfl
  | some first =>
      cases field? secondName second? members with
      | none => rfl
      | some second => rfl

end TwoFields

/-- The reader takes values from the front of a written list as the other does from its items. -/
def ReadsItems {Value : Type} (isFirst : Bool) (reader : Reader Value)
    (taking : Taking Value) : Prop :=
  ∀ items inner rest, WritesList Writes isFirst items inner →
    match taking items with
    | none => outcome? reader (inner ++ closeBracket :: rest) = none
    | some (value, more) =>
        ∃ tail, WritesList Writes false more tail ∧
          outcome? reader (inner ++ closeBracket :: rest) =
            some (value, tail ++ closeBracket :: rest)

section Lists

variable {Value Result : Type} {isFirst : Bool}

theorem ReadsItems.pure (value : Value) : ReadsItems false (pure value) (pure value) := by
  intro items inner rest writes
  exact ⟨inner, writes, rfl⟩

/-- Fields are taken from a list in their order. -/
theorem ReadsItems.bind {reader : Reader Value} {taking : Taking Value}
    {next : Value → Reader Result} {takingNext : Value → Taking Result}
    (first : ReadsItems isFirst reader taking)
    (second : ∀ value, ReadsItems false (next value) (takingNext value)) :
    ReadsItems isFirst (reader >>= next) (taking >>= takingNext) := by
  intro items inner rest writes
  have firstRead := first items inner rest writes
  have opened : (taking >>= takingNext) items =
      (taking items).bind fun taken => takingNext taken.1 taken.2 := rfl
  rw [opened]
  cases taken : taking items with
  | none =>
      rw [taken] at firstRead
      dsimp only at firstRead
      simp only [Option.bind_none, outcome?_bind, firstRead]
  | some result =>
      rw [taken] at firstRead
      obtain ⟨tail, writesTail, read⟩ := firstRead
      have secondRead := second result.1 result.2 tail rest writesTail
      simp only [Option.bind_some, outcome?_bind, read]
      exact secondRead

/-- The next item is read if there is one, and otherwise the closing bracket is found. -/
theorem readsItems_item? {reader : Reader Value} {value? : Written → Option Value}
    (reads : Reads reader value?) {items : List Written} {inner : List UInt8}
    (writes : WritesList Writes isFirst items inner) (rest : List UInt8) :
    match items with
    | [] =>
        outcome? (item? reader isFirst) (inner ++ closeBracket :: rest) =
          some (none, closeBracket :: rest)
    | item :: more =>
        ∃ tail, WritesList Writes false more tail ∧
          outcome? (item? reader isFirst) (inner ++ closeBracket :: rest) =
            (value? item).map fun value => (some value, tail ++ closeBracket :: rest) := by
  cases items with
  | nil =>
      rw [item?, outcome?_bind, outcome?_atItem_done writes]
      rfl
  | cons item more =>
      obtain ⟨core, tail, writesItem, writesRest, _, started⟩ :=
        outcome?_atItem_more (fun _ _ writes => writes.opens) writes
      have delimited : Delimited (tail ++ closeBracket :: rest) :=
        .list_append writesRest (.bracket .list rest)
      have itemRead : outcome? reader (core ++ (tail ++ closeBracket :: rest)) = _ :=
        reads item core [] _ writesItem rfl delimited
      refine ⟨tail, writesRest, ?_⟩
      rw [item?, outcome?_bind, started, Option.bind_some]
      dsimp only
      rw [if_pos rfl, outcome?_bind, itemRead]
      cases value? item with
      | none => rfl
      | some value => rfl

/-- A field of a list is decoded from the item at its place. -/
theorem readsItems_fieldAt (name : String) (fields place : Nat) {reader : Reader Value}
    {value? : Written → Option Value} (reads : Reads reader value?) :
    ReadsItems (place = 0) (fieldAt name fields place reader) (takeItem value?) := by
  intro items inner rest writes
  have taken := readsItems_item? reads writes rest
  cases items with
  | nil =>
      simp only [takeItem, fieldAt, outcome?_bind, taken, Option.bind_some, outcome?_refuse]
  | cons item more =>
      obtain ⟨tail, writesRest, read⟩ := taken
      cases valued : value? item with
      | none =>
          simp only [takeItem, valued, Option.map_none, fieldAt, outcome?_bind, read,
            Option.bind_none]
      | some value =>
          simp only [takeItem, valued, Option.map_some, fieldAt, outcome?_bind, read,
            Option.bind_some, outcome?_pure]
          exact ⟨tail, writesRest, rfl⟩

/-- A field that a list is too short for has its default. -/
theorem readsItems_fieldOr (place : Nat) {reader : Reader Value}
    {value? : Written → Option Value} (reads : Reads reader value?) (absent : Value) :
    ReadsItems (place = 0) (fieldOr place reader absent) (takeItemOr value? absent) := by
  intro items inner rest writes
  have taken := readsItems_item? reads writes rest
  cases items with
  | nil =>
      simp only [takeItemOr, fieldOr, outcome?_bind, taken, Option.bind_some, outcome?_pure]
      exact ⟨[], .done rfl, rfl⟩
  | cons item more =>
      obtain ⟨tail, writesRest, read⟩ := taken
      cases valued : value? item with
      | none =>
          simp only [takeItemOr, valued, Option.map_none, fieldOr, outcome?_bind, read,
            Option.bind_none]
      | some value =>
          simp only [takeItemOr, valued, Option.map_some, fieldOr, outcome?_bind, read,
            Option.bind_some, outcome?_pure]
          exact ⟨tail, writesRest, rfl⟩

/-- The closing bracket is found behind the last item and not before. -/
theorem outcome?_closeList {items : List Written} {inner rest : List UInt8}
    (writes : WritesList Writes false items inner) :
    outcome? closeList (inner ++ closeBracket :: rest) =
      if items = [] then some ((), rest) else none := by
  cases writes with
  | done isGap =>
      rw [closeList, outcome?_token isGap rfl]
      rfl
  | @next item more before after core tail isBefore isAfter writesItem _ =>
      obtain ⟨byte, behind, rfl, solid, notClosed, _⟩ := writesItem.opens
      have notNext : some byte ≠ some closeBracket := by
        intro same
        exact notClosed (Option.some.inj same)
      have notEnd : comma ≠ closeBracket := by decide
      simp only [List.append_assoc, List.cons_append]
      rw [closeList, outcome?_token isBefore rfl, if_neg (List.cons_ne_nil item more)]
      dsimp only
      rw [if_neg notEnd, if_pos rfl, outcome?_bind, outcome?_skipByte, Option.bind_some,
        List.tail_cons, outcome?_token isAfter solid, if_neg notNext]
      rfl

/-- A record in the form of a list must have no further items. -/
theorem outcome?_enclosed_list {reader : Reader Value} {taking : Taking Value}
    (reads : ReadsItems true reader taking) {items : List Written} {inner rest : List UInt8}
    (writes : WritesList Writes true items inner) :
    outcome? (enclosed reader closeList) (inner ++ closeBracket :: rest) =
      (takeAll? taking items).map fun value => (value, rest) := by
  have read := reads items inner rest writes
  rw [outcome?_enclosed, takeAll?]
  cases taken : taking items with
  | none =>
      rw [taken] at read
      dsimp only at read
      rw [read]
      rfl
  | some result =>
      rw [taken] at read
      obtain ⟨tail, writesTail, read⟩ := read
      rw [read, Option.bind_some, outcome?_closeList writesTail]
      obtain ⟨value, more⟩ := result
      cases more with
      | nil => rfl
      | cons item others => rfl

/-- A structure whose only field may be missing. -/
theorem reads_single {Value : Type} (name : String) {field : Option Value → String →
      Reader (Option Value)} {fieldName : String} {reader : Reader Value}
    {value? : Written → Option Value} (reads : Reads reader value?) (absent : Value)
    (known : ∀ earlier, field earlier fieldName = once fieldName earlier reader)
    (unknown : ∀ earlier key, key ≠ fieldName → field earlier key = do
      unknownField
      return earlier) :
    Reads
      (record name
        (do
          let value ← members field none
          return value.getD absent)
        (fieldOr 0 reader absent))
      (record? (fun members => (field? fieldName value? members).map (·.getD absent))
        (takeAll? (takeItemOr value? absent))) := by
  apply reads_record
  · intro members inner rest writes
    rw [outcome?_bind, outcome?_members_one reads known unknown writes]
    cases field? fieldName value? members with
    | none => rfl
    | some value => rfl
  · intro items inner rest writes
    exact outcome?_enclosed_list (readsItems_fieldOr 0 reads absent) writes

end Lists

/-- A document is read as its value is. -/
theorem document_eq_ok_iff {Value : Type} {reader : Reader Value}
    {value? : Written → Option Value} (reads : Reads reader value?) {tree : Written}
    {bytes : List UInt8} (writes : tree.WritesDocument bytes) (value : Value) :
    document reader bytes = .ok value ↔ value? tree = some value := by
  rw [document_eq_ok]
  cases writes with
  | @around before core after isBefore writesCore isAfter =>
      have delimited : Delimited after := by
        rw [← List.append_nil after]
        exact .gap_append isAfter .nil
      have read := reads tree core before after writesCore isBefore delimited
      constructor
      · rintro ⟨rest, succeeded, _⟩
        rw [← outcome?_eq_some_iff, read] at succeeded
        obtain ⟨found, same, isFound⟩ := Option.map_eq_some_iff.1 succeeded
        rw [same, (Prod.mk.inj isFound).1]
      · intro found
        rw [found] at read
        exact ⟨after, outcome?_eq_some_iff.1 read, isAfter⟩

end Reader

end LightList.Json
