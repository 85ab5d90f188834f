/-
This file shows how the readers of lists and objects go through what is written between brackets.

The first byte of a value tells its kind. What follows a value inside brackets ends it: a gap, a
comma or the closing bracket.
-/

import LightList.Proofs.Json.NumeralReading
import LightList.Proofs.Json.SpelledText

namespace LightList.Json

namespace Written

/-- The first byte of a value tells its kind. -/
def Begins : Written → UInt8 → Prop
  | .null, byte => byte = letterN
  | .boolean value, byte => byte = if value then letterT else letterF
  | .number _, byte => byte = minus ∨ isDigit byte = true
  | .string _, byte => byte = quote
  | .array _, byte => byte = openBracket
  | .object _, byte => byte = openBrace

/-- Nothing is written with no bytes at all. -/
theorem Writes.exists_cons {tree : Written} {bytes : List UInt8} (writes : Writes tree bytes) :
    ∃ byte more, bytes = byte :: more ∧ tree.Begins byte := by
  cases writes with
  | null => exact ⟨_, _, rfl, rfl⟩
  | boolean value =>
      cases value with
      | false => exact ⟨_, _, rfl, rfl⟩
      | true => exact ⟨_, _, rfl, rfl⟩
  | number numeral => exact numeral.bytes_eq_cons
  | string _ => exact ⟨_, _, rfl, rfl⟩
  | array _ => exact ⟨_, _, rfl, rfl⟩
  | object _ => exact ⟨_, _, rfl, rfl⟩

end Written

/-- Bytes that begin neither with a blank nor with a closing bracket. -/
def Opens (bytes : List UInt8) : Prop :=
  ∃ byte more, bytes = byte :: more ∧ isBlank byte = false ∧ byte ≠ closeBracket ∧
    byte ≠ closeBrace

/-- The first byte of a value is neither a blank nor a closing bracket. -/
theorem Written.Begins.opens {tree : Written} {byte : UInt8} (begins : tree.Begins byte)
    (more : List UInt8) : Opens (byte :: more) := by
  refine ⟨byte, more, rfl, ?_⟩
  cases tree with
  | null =>
      rw [show byte = letterN from begins]
      decide
  | boolean value =>
      rw [show byte = if value then letterT else letterF from begins]
      cases value <;> decide
  | number numeral =>
      rcases begins with rfl | isDigit
      · decide
      · refine ⟨isBlank_of_isDigit isDigit, ?_, ?_⟩
        · rintro rfl
          exact absurd isDigit (by decide)
        · rintro rfl
          exact absurd isDigit (by decide)
  | string text =>
      rw [show byte = quote from begins]
      decide
  | array items =>
      rw [show byte = openBracket from begins]
      decide
  | object members =>
      rw [show byte = openBrace from begins]
      decide

/-- A written value begins like a value. -/
theorem Written.Writes.opens {tree : Written} {bytes : List UInt8} (writes : Writes tree bytes) :
    Opens bytes := by
  obtain ⟨byte, more, rfl, begins⟩ := writes.exists_cons
  exact begins.opens more

/-- A written member begins with its quote. -/
theorem WritesMember.opens {Value : Type} {Writes : Value → List UInt8 → Prop}
    {entry : String × Value} {bytes : List UInt8} (writes : WritesMember Writes entry bytes) :
    Opens bytes := by
  cases writes with
  | pair _ _ _ _ => exact ⟨quote, _, rfl, by decide⟩

namespace Delimited

/-- A gap does not remove what ends a numeral. -/
theorem gap_append {gap rest : List UInt8} (isGap : IsGap gap) (delimited : Delimited rest) :
    Delimited (gap ++ rest) := by
  cases gap with
  | nil => exact delimited
  | cons byte more =>
      rw [IsGap, List.all_cons, Bool.and_eq_true] at isGap
      intro first isFirst
      cases isFirst
      exact .inl isGap.1

theorem comma (rest : List UInt8) : Delimited (Json.comma :: rest) := by
  intro byte isFirst
  cases isFirst
  exact .inr (.inl rfl)

theorem bracket (bracket : Bracket) (rest : List UInt8) :
    Delimited (bracket.close :: rest) := by
  intro byte isFirst
  cases isFirst
  cases bracket with
  | list => exact .inr (.inr (.inl rfl))
  | object => exact .inr (.inr (.inr rfl))

/-- After an item comes a gap, a comma or the closing bracket. -/
theorem list_append {Item : Type} {Writes : Item → List UInt8 → Prop} {items : List Item}
    {inner rest : List UInt8} (writes : WritesList Writes false items inner)
    (delimited : Delimited rest) : Delimited (inner ++ rest) := by
  cases writes with
  | done isGap => exact gap_append isGap delimited
  | next isBefore _ _ _ =>
      rw [List.append_assoc]
      exact gap_append isBefore (comma _)

end Delimited

namespace Reader

section Lists

variable {Item Value : Type} {Writes : Item → List UInt8 → Prop} {rest : List UInt8}

/-- A list without items holds a gap, and its closing bracket is next. -/
theorem outcome?_atItem_done {isFirst : Bool} {inner : List UInt8}
    (writes : WritesList Writes isFirst [] inner) :
    outcome? (atItem isFirst) (inner ++ closeBracket :: rest) =
      some (false, closeBracket :: rest) := by
  cases writes with
  | done isGap =>
      rw [atItem, outcome?_token isGap rfl]
      rfl

/-- Otherwise the first item is next, behind its comma. -/
theorem outcome?_atItem_more {isFirst : Bool} {item : Item} {more : List Item}
    {inner : List UInt8} (opens : ∀ item bytes, Writes item bytes → Opens bytes)
    (writes : WritesList Writes isFirst (item :: more) inner) :
    ∃ core tail, Writes item core ∧ WritesList Writes false more tail ∧
      core.length + tail.length ≤ inner.length ∧
      outcome? (atItem isFirst) (inner ++ rest) = some (true, core ++ (tail ++ rest)) := by
  cases writes with
  | @first _ _ gap core tail isGap writesItem writesRest =>
      refine ⟨core, tail, writesItem, writesRest, ?_, ?_⟩
      · simp only [List.length_append]
        omega
      · obtain ⟨byte, behind, rfl, solid, notClosed, _⟩ := opens _ _ writesItem
        rw [List.append_assoc, List.append_assoc, List.cons_append, atItem,
          outcome?_token isGap solid]
        dsimp only
        rw [if_neg notClosed]
        rfl
  | @next _ _ before after core tail isBefore isAfter writesItem writesRest =>
      refine ⟨core, tail, writesItem, writesRest, ?_, ?_⟩
      · simp only [List.length_append, List.length_cons]
        omega
      · obtain ⟨byte, behind, rfl, solid, notClosed, _⟩ := opens _ _ writesItem
        have notEnd : Json.comma ≠ closeBracket := by decide
        rw [List.append_assoc, List.cons_append, List.append_assoc, List.append_assoc,
          List.cons_append, atItem, outcome?_token isBefore rfl]
        dsimp only
        rw [if_neg notEnd, if_neg Bool.false_ne_true, if_pos rfl, outcome?_bind,
          outcome?_skipByte, Option.bind_some, List.tail_cons, outcome?_token isAfter solid]
        dsimp only
        rw [if_neg notClosed]
        rfl

/-- The items are read one after the other, and the closing bracket is next. -/
theorem outcome?_itemsWithin {reader : Reader Value} {value? : Item → Option Value}
    (opens : ∀ item bytes, Writes item bytes → Opens bytes)
    (reads : ∀ item bytes rest, Writes item bytes → Delimited rest →
      outcome? reader (bytes ++ rest) = (value? item).map fun value => (value, rest))
    {items : List Item} {isFirst : Bool} {inner : List UInt8}
    (writes : WritesList Writes isFirst items inner) (bound : List UInt8) (taken : List Value)
    (enough : inner.length < bound.length) :
    outcome? (itemsWithin reader bound isFirst taken) (inner ++ closeBracket :: rest) =
      (items.mapM value?).map fun values => (taken.reverse ++ values, closeBracket :: rest) := by
  induction items generalizing isFirst inner bound taken with
  | nil =>
      cases bound with
      | nil => cases enough
      | cons first bound =>
          rw [itemsWithin, outcome?_bind, outcome?_atItem_done writes]
          simp
  | cons item more inductionHypothesis =>
      cases bound with
      | nil => cases enough
      | cons first bound =>
          obtain ⟨core, tail, writesItem, writesRest, shorter, started⟩ :=
            outcome?_atItem_more opens writes
          have delimited : Delimited (tail ++ closeBracket :: rest) :=
            .list_append writesRest (.bracket .list rest)
          rw [itemsWithin, outcome?_bind, started, Option.bind_some]
          dsimp only
          rw [if_pos rfl, outcome?_bind, reads _ _ _ writesItem delimited, List.mapM_cons]
          cases value? item with
          | none => rfl
          | some value =>
              obtain ⟨byte, behind, rfl, _⟩ := opens _ _ writesItem
              rw [List.length_cons] at enough shorter
              rw [Option.map_some, Option.bind_some,
                inductionHypothesis writesRest bound (value :: taken) (by omega)]
              cases more.mapM value? with
              | none => rfl
              | some values => simp

/-- Items are read one after another up to the closing bracket, when each is read. -/
theorem outcome?_items {reader : Reader Value} {value? : Item → Option Value}
    (opens : ∀ item bytes, Writes item bytes → Opens bytes)
    (reads : ∀ item bytes rest, Writes item bytes → Delimited rest →
      outcome? reader (bytes ++ rest) = (value? item).map fun value => (value, rest))
    {items : List Item} {inner : List UInt8} (writes : WritesList Writes true items inner) :
    outcome? (Reader.items reader) (inner ++ closeBracket :: rest) =
      (items.mapM value?).map fun values => (values, closeBracket :: rest) := by
  have enough : inner.length < (inner ++ closeBracket :: rest).length := by
    rw [List.length_append, List.length_cons]
    omega
  exact outcome?_itemsWithin opens reads writes _ [] enough

end Lists

section Objects

variable {Value State : Type} {Writes : Value → List UInt8 → Prop} {rest : List UInt8}

/-- A colon is taken with the gap before it. -/
theorem outcome?_takeColon {gap : List UInt8} (isGap : IsGap gap) :
    outcome? takeColon (gap ++ colon :: rest) = some ((), rest) := by
  rw [takeColon, outcome?_token isGap rfl]
  rfl

/-- Where no member is left the closing brace is found. -/
theorem outcome?_key?_done {isFirst : Bool} {inner : List UInt8}
    (writes : WritesList (WritesMember Writes) isFirst [] inner) :
    outcome? (key? isFirst) (inner ++ closeBrace :: rest) = some (none, closeBrace :: rest) := by
  cases writes with
  | done isGap =>
      rw [key?, outcome?_bind, atMember, outcome?_token isGap rfl]
      rfl

/-- The key of the next member is read, and its colon and its value are next. -/
theorem outcome?_key?_more {isFirst : Bool} {key : String} {value : Value}
    {more : List (String × Value)} {inner : List UInt8}
    (writes : WritesList (WritesMember Writes) isFirst ((key, value) :: more) inner) :
    ∃ before after core tail, IsGap before ∧ IsGap after ∧ Writes value core ∧
      WritesList (WritesMember Writes) false more tail ∧ tail.length < inner.length ∧
      outcome? (key? isFirst) (inner ++ rest) =
        some (some key, before ++ colon :: (after ++ (core ++ (tail ++ rest)))) := by
  have keyRead {text : List UInt8} (writesKey : WritesText key text) (behind : List UInt8) :
      outcome?
          (do
            skipByte
            let key ← Reader.text
            return some key)
          (quote :: (text ++ quote :: behind)) = some (some key, behind) := by
    simp only [outcome?_bind, outcome?_skipByte, Option.bind_some, List.tail_cons,
      outcome?_text writesKey, outcome?_pure]
  cases writes with
  | @first _ _ gap _ tail isGap writesItem writesRest =>
      cases writesItem with
      | @pair _ _ text before after core writesKey isBefore isAfter writesValue =>
          refine ⟨before, after, core, tail, isBefore, isAfter, writesValue, writesRest, ?_, ?_⟩
          · simp only [List.length_append, List.length_cons]
            omega
          · have notEnd : quote ≠ closeBrace := by decide
            simp only [List.append_assoc, List.cons_append]
            rw [key?, outcome?_bind, atMember, outcome?_token isGap rfl]
            dsimp only
            rw [if_neg notEnd, if_pos rfl, if_pos rfl]
            exact keyRead writesKey _
  | @next _ _ front behind _ tail isFront isBehind writesItem writesRest =>
      cases writesItem with
      | @pair _ _ text before after core writesKey isBefore isAfter writesValue =>
          refine ⟨before, after, core, tail, isBefore, isAfter, writesValue, writesRest, ?_, ?_⟩
          · simp only [List.length_append, List.length_cons]
            omega
          · have notEnd : Json.comma ≠ closeBrace := by decide
            simp only [List.append_assoc, List.cons_append]
            rw [key?, outcome?_bind, atMember, outcome?_token isFront rfl]
            dsimp only
            rw [if_neg notEnd, if_neg Bool.false_ne_true, if_pos rfl, outcome?_bind,
              outcome?_skipByte, Option.bind_some, List.tail_cons, outcome?_token isBehind rfl]
            exact keyRead writesKey _

/-- The members are read one after the other, and the closing brace is next. -/
theorem outcome?_membersWithin {member : State → String → Reader State}
    (step : State → String × Value → Option State)
    (reads : ∀ state key value before after core rest, IsGap before → IsGap after →
      Writes value core → Delimited rest →
        outcome? (member state key) (before ++ colon :: (after ++ (core ++ rest))) =
          (step state (key, value)).map fun state => (state, rest))
    {entries : List (String × Value)} {isFirst : Bool} {inner : List UInt8}
    (writes : WritesList (WritesMember Writes) isFirst entries inner) (bound : List UInt8)
    (state : State) (enough : inner.length < bound.length) :
    outcome? (membersWithin member bound isFirst state) (inner ++ closeBrace :: rest) =
      (entries.foldlM step state).map fun state => (state, closeBrace :: rest) := by
  induction entries generalizing isFirst inner bound state with
  | nil =>
      cases bound with
      | nil => cases enough
      | cons first bound =>
          rw [membersWithin, outcome?_bind, outcome?_key?_done writes]
          rfl
  | cons entry more inductionHypothesis =>
      obtain ⟨key, value⟩ := entry
      cases bound with
      | nil => cases enough
      | cons first bound =>
          obtain ⟨before, after, core, tail, isBefore, isAfter, writesValue, writesRest, shorter,
            started⟩ := outcome?_key?_more writes
          have delimited : Delimited (tail ++ closeBrace :: rest) :=
            .list_append writesRest (.bracket .object rest)
          rw [List.length_cons] at enough
          rw [membersWithin, outcome?_bind, started, Option.bind_some]
          dsimp only
          rw [outcome?_bind, reads _ _ _ _ _ _ _ isBefore isAfter writesValue delimited, List.foldlM_cons]
          cases step state (key, value) with
          | none => rfl
          | some next => exact inductionHypothesis writesRest bound next (by omega)

/-- Members are read one after another up to the closing brace, with a state in between. -/
theorem outcome?_members {member : State → String → Reader State}
    (step : State → String × Value → Option State)
    (reads : ∀ state key value before after core rest, IsGap before → IsGap after →
      Writes value core → Delimited rest →
        outcome? (member state key) (before ++ colon :: (after ++ (core ++ rest))) =
          (step state (key, value)).map fun state => (state, rest))
    {entries : List (String × Value)} {inner : List UInt8}
    (writes : WritesList (WritesMember Writes) true entries inner) (start : State) :
    outcome? (members member start) (inner ++ closeBrace :: rest) =
      (entries.foldlM step start).map fun state => (state, closeBrace :: rest) := by
  have enough : inner.length < (inner ++ closeBrace :: rest).length := by
    rw [List.length_append, List.length_cons]
    omega
  exact outcome?_membersWithin step reads writes _ start enough

end Objects

end Reader

end LightList.Json
