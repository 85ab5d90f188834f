/-
This file says which values have a given type, and shows that the readers of that type read exactly
those.
-/

import LightList.Proofs.Json.Skipping
import LightList.Proofs.TagLookup

namespace LightList.Json

inductive Shape where
  | null
  | boolean
  | number
  | string
  | array
  | object
deriving DecidableEq

/-- This is the kind of a value that begins with the byte. -/
def Shape.ofByte (byte : UInt8) : Shape :=
  if byte = letterN then .null
  else if byte = letterT ∨ byte = letterF then .boolean
  else if byte = quote then .string
  else if byte = openBracket then .array
  else if byte = openBrace then .object
  else .number

/-- A minus sign or a digit announces a number. -/
theorem Shape.ofByte_number {byte : UInt8} (begins : byte = minus ∨ isDigit byte = true) :
    ofByte byte = .number := by
  have differs {other : UInt8} (outside : other ≠ minus ∧ isDigit other = false) :
      byte ≠ other := by
    rintro rfl
    rcases begins with isMinus | digit
    · exact outside.1 isMinus
    · rw [outside.2] at digit
      cases digit
  rw [ofByte, if_neg (differs (by decide)),
    if_neg (not_or.2 ⟨differs (by decide), differs (by decide)⟩), if_neg (differs (by decide)),
    if_neg (differs (by decide)), if_neg (differs (by decide))]

namespace Written

def shape : Written → Shape
  | .null => .null
  | .boolean _ => .boolean
  | .number _ => .number
  | .string _ => .string
  | .array _ => .array
  | .object _ => .object

/-- The first byte of a written value tells its shape. -/
theorem Begins.shape {tree : Written} {byte : UInt8} (begins : tree.Begins byte) :
    tree.shape = Shape.ofByte byte := by
  cases tree with
  | null =>
      rw [show byte = letterN from begins]
      rfl
  | boolean value =>
      rw [show byte = if value then letterT else letterF from begins]
      cases value <;> rfl
  | number numeral => exact (Shape.ofByte_number begins).symm
  | string text =>
      rw [show byte = quote from begins]
      rfl
  | array items =>
      rw [show byte = openBracket from begins]
      rfl
  | object members =>
      rw [show byte = openBrace from begins]
      rfl

def int64? : Written → Option Int64
  | .number numeral => numeral.int64?
  | _ => none

def float? : Written → Option Float
  | .number numeral => Reader.float? numeral
  | _ => none

def text? : Written → Option String
  | .string text => some text
  | _ => none

/-- Null stands for an absent value. -/
def orNull? {Value : Type} (value? : Written → Option Value) : Written → Option (Option Value)
  | .null => some none
  | tree => (value? tree).map some

/-- What is not null is decoded as it would be without the choice of null. -/
theorem orNull?_of_ne_null {Value : Type} (value? : Written → Option Value) {tree : Written}
    (notNull : tree ≠ .null) : orNull? value? tree = (value? tree).map some := by
  cases tree with
  | null => exact (notNull rfl).elim
  | _ => rfl

def listOf? {Value : Type} (item? : Written → Option Value) : Written → Option (List Value)
  | .array items => items.mapM item?
  | _ => none

def textMember? (entry : String × Written) : Option (String × String) :=
  entry.2.text?.map fun text => (entry.1, text)

def member? {Value : Type} (value? : Written → Option Value) (entry : String × Written) :
    Option (String × Value) :=
  (value? entry.2).map fun value => (entry.1, value)

theorem textMember?_eq : textMember? = member? Written.text? := rfl

/-- The values are all strings, and of two members with the same key the later one counts. -/
def tags? : Written → Option Tags
  | .object members => (members.mapM textMember?).map fun pairs => Tags.ofList (Keyed.latest pairs)
  | _ => none

/-- This is a name, alone or as the key of an object that holds null. -/
def variant? {Value : Type} (ofName? : String → Option Value) : Written → Option Value
  | .string name => ofName? name
  | .object [(name, .null)] => ofName? name
  | _ => none

end Written

namespace Reader

open Written

/-- The reader reads the values of its type and no others, and takes their bytes. -/
def Reads {Value : Type} (reader : Reader Value) (value? : Written → Option Value) : Prop :=
  ∀ tree core gap rest, Writes tree core → IsGap gap → Delimited rest →
    outcome? reader (gap ++ (core ++ rest)) = (value? tree).map fun value => (value, rest)

section Types

variable {Value : Type} {tree : Written} {core gap rest : List UInt8}

/-- A reader that decides on the first byte refuses values of another kind. -/
theorem outcome?_otherwise {next : Option UInt8 → Reader Value} (Refused : Shape → Prop)
    (refuses : ∀ byte input, Refused (Shape.ofByte byte) →
      outcome? (next (some byte)) input = none)
    (writes : Writes tree core) (isGap : IsGap gap) (other : Refused tree.shape) :
    outcome? (peekToken >>= next) (gap ++ (core ++ rest)) = none := by
  obtain ⟨byte, more, rfl, begins⟩ := writes.exists_cons
  obtain ⟨_, _, same, solid, _⟩ := begins.opens more
  cases same
  rw [List.cons_append, outcome?_token isGap solid]
  apply refuses
  rw [← begins.shape]
  exact other

/-- Where a number is expected nothing else is read. -/
theorem outcome?_numberAs_otherwise (wanted : String) (accept : Number → Reader Value)
    (writes : Writes tree core) (isGap : IsGap gap) (other : tree.shape ≠ .number) :
    outcome? (numberAs wanted accept) (gap ++ (core ++ rest)) = none := by
  apply outcome?_otherwise (· ≠ .number) _ writes isGap other
  intro byte input notNumber
  have notBegun : ¬ (byte = minus ∨ isDigit byte = true) :=
    fun begins => notNumber (Shape.ofByte_number begins)
  dsimp only
  rw [if_neg notBegun, outcome?_wrongType]

/-- The reader of integers takes what the decoder of integers accepts. -/
theorem reads_int64 : Reads int64 Written.int64? := by
  intro tree core gap rest writes isGap delimited
  cases tree with
  | number numeral =>
      cases writes
      exact outcome?_int64 numeral isGap delimited
  | _ => exact outcome?_numberAs_otherwise _ _ writes isGap nofun

/-- The reader of floats takes what the decoder of floats accepts. -/
theorem reads_float : Reads float Written.float? := by
  intro tree core gap rest writes isGap delimited
  cases tree with
  | number numeral =>
      cases writes
      exact outcome?_float numeral isGap delimited
  | _ => exact outcome?_numberAs_otherwise _ _ writes isGap nofun

/-- A string is read and may then be refused for its content. -/
theorem outcome?_textAs {text : String} {bytes : List UInt8} (wanted : String)
    (accept : String → Reader Value) (writes : WritesText text bytes) (isGap : IsGap gap) :
    outcome? (textAs wanted accept) (gap ++ quote :: (bytes ++ quote :: rest)) =
      outcome? (accept text) rest := by
  rw [textAs, outcome?_token isGap rfl]
  dsimp only
  rw [if_pos rfl, outcome?_settled, outcome?_bind, outcome?_skipByte, Option.bind_some,
    List.tail_cons, outcome?_bind, outcome?_text writes, Option.bind_some]

/-- Behind an opening quote the text is collected and then handed on. -/
theorem outcome?_textAs_ahead {text : String} {bytes : List UInt8} (wanted : String)
    (accept : String → Reader Value) (writes : WritesText text bytes) :
    outcome? (textAs wanted accept) (quote :: (bytes ++ quote :: rest)) =
      outcome? (accept text) rest := by
  have noGap : IsGap [] := rfl
  exact outcome?_textAs wanted accept writes noGap

/-- Where a text is expected nothing else is read. -/
theorem outcome?_textAs_otherwise (wanted : String) (accept : String → Reader Value)
    (writes : Writes tree core) (isGap : IsGap gap) (other : tree.shape ≠ .string) :
    outcome? (textAs wanted accept) (gap ++ (core ++ rest)) = none := by
  apply outcome?_otherwise (· ≠ .string) _ writes isGap other
  intro byte input notString
  have notQuote : byte ≠ quote := by
    rintro rfl
    exact notString rfl
  dsimp only
  rw [if_neg notQuote, outcome?_wrongType]

/-- The reader of texts takes the strings and nothing else. -/
theorem reads_string : Reads string Written.text? := by
  intro tree core gap rest writes isGap delimited
  cases tree with
  | string text =>
      cases writes with
      | string writesText =>
          rw [List.cons_append, List.append_assoc, List.singleton_append]
          exact outcome?_textAs _ _ writesText isGap
  | _ => exact outcome?_textAs_otherwise _ _ writes isGap nofun

/-- Null is taken, and any other value is left to the reader. -/
theorem reads_orNull {reader : Reader Value} {value? : Written → Option Value}
    (reads : Reads reader value?) : Reads (orNull reader) (orNull? value?) := by
  intro tree core gap rest writes isGap delimited
  obtain ⟨byte, more, rfl, begins⟩ := writes.exists_cons
  obtain ⟨_, _, same, solid, _⟩ := begins.opens more
  cases same
  rw [List.cons_append, orNull, outcome?_token isGap solid]
  by_cases isNull : tree = .null
  · subst isNull
    cases writes
    rw [if_pos rfl, outcome?_bind, outcome?_skipByte, Option.bind_some, outcome?_bind,
      restOfNull]
    exact congrArg (Option.bind · _) (outcome?_letters [letterU, 0x6c, 0x6c] rest)
  · have notNull : some byte ≠ some letterN := by
      intro isLetter
      have isShape := begins.shape
      rw [Option.some.inj isLetter] at isShape
      cases tree with
      | null => exact isNull rfl
      | _ => cases isShape
    have direct := reads tree (byte :: more) [] rest writes rfl delimited
    rw [List.nil_append, List.cons_append] at direct
    rw [if_neg notNull, outcome?_map, direct, orNull?_of_ne_null value? isNull, Option.map_map,
      Option.map_map]
    rfl

theorem outcome?_closeObject : outcome? closeObject (closeBrace :: rest) = some ((), rest) := rfl

/-- A list is read when each of its items is. -/
theorem reads_listOf {item : Reader Value} {item? : Written → Option Value}
    (reads : Reads item item?) : Reads (listOf item) (listOf? item?) := by
  intro tree core gap rest writes isGap delimited
  cases tree with
  | array items =>
      cases writes with
      | @array _ inner writesItems =>
          have readsItem (item : Written) (bytes rest : List UInt8) (writesItem : Writes item bytes)
              (delimited : Delimited rest) :=
            reads item bytes [] rest writesItem rfl delimited
          have itemsRead : outcome? (Reader.items item) (inner ++ closeBracket :: rest) =
              (items.mapM item?).map fun values => (values, closeBracket :: rest) :=
            outcome?_items (fun _ _ writes => writes.opens) readsItem writesItems
          have closed : outcome? closeList (closeBracket :: rest) = some ((), rest) := rfl
          simp only [List.cons_append, List.append_assoc, List.nil_append]
          rw [listOf, outcome?_token isGap rfl]
          dsimp only
          rw [if_pos rfl, outcome?_bind, outcome?_skipByte, Option.bind_some, List.tail_cons,
            outcome?_enclosed, itemsRead, listOf?]
          cases items.mapM item? with
          | none => rfl
          | some values => simp [closed]
  | _ =>
      apply outcome?_otherwise (· ≠ .array) _ writes isGap nofun
      intro byte input notArray
      have notBracket : byte ≠ openBracket := by
        rintro rfl
        exact notArray rfl
      dsimp only
      rw [if_neg notBracket, outcome?_wrongType]

/-- What is collected in front is what is read in order, reversed. -/
theorem foldlM_front {Item : Type} (value? : Item → Option Value) (items : List Item)
    (taken : List Value) :
    items.foldlM (fun taken item => (value? item).map (· :: taken)) taken =
      (items.mapM value?).map fun values => values.reverse ++ taken := by
  induction items generalizing taken with
  | nil => rfl
  | cons item rest inductionHypothesis =>
      rw [List.foldlM_cons, List.mapM_cons]
      cases value? item with
      | none => rfl
      | some value =>
          change rest.foldlM _ (value :: taken) = _
          rw [inductionHypothesis]
          cases rest.mapM value? with
          | none => rfl
          | some values => simp

/-- The entries of an object are read up to its closing brace, when each value is. -/
theorem outcome?_entries {reader : Reader Value} {value? : Written → Option Value}
    (reads : Reads reader value?) {members : List (String × Written)} {inner : List UInt8}
    (writes : WritesList (WritesMember Writes) true members inner) :
    outcome? (entries reader) (inner ++ closeBrace :: rest) =
      (members.mapM (member? value?)).map fun pairs => (pairs, closeBrace :: rest) := by
  have readsMember (taken : List (String × Value)) (key : String) (value : Written)
      (before after core rest : List UInt8) (isBefore : IsGap before) (isAfter : IsGap after)
      (writesValue : Writes value core) (delimited : Delimited rest) :
      outcome?
          (do
            takeColon
            let entry ← reader
            return (key, entry) :: taken)
          (before ++ colon :: (after ++ (core ++ rest))) =
        ((member? value? (key, value)).map (· :: taken)).map fun taken => (taken, rest) := by
    rw [outcome?_bind, outcome?_takeColon isBefore, Option.bind_some, outcome?_bind,
      reads value core after rest writesValue isAfter delimited, member?]
    cases value? value with
    | none => rfl
    | some entry => rfl
  rw [entries, outcome?_bind,
    outcome?_members (fun taken entry => (member? value? entry).map (· :: taken)) readsMember
      writes, foldlM_front]
  cases members.mapM (member? value?) with
  | none => rfl
  | some pairs => simp

/-- The reader of tags takes the objects whose values are strings, and a later key wins. -/
theorem reads_tagMap : Reads tagMap Written.tags? := by
  intro tree core gap rest writes isGap delimited
  cases tree with
  | object members =>
      cases writes with
      | @object _ inner writesMembers =>
          simp only [List.cons_append, List.append_assoc, List.nil_append]
          rw [tagMap, outcome?_token isGap rfl]
          dsimp only
          rw [if_pos rfl, outcome?_bind, outcome?_skipByte, Option.bind_some, List.tail_cons,
            outcome?_enclosed, outcome?_map, outcome?_entries reads_string writesMembers,
            Written.tags?, textMember?_eq]
          cases members.mapM (member? Written.text?) with
          | none => rfl
          | some pairs =>
              simp only [Option.map_some, Option.bind_some, Tags.ofList_latest]
              rw [outcome?_closeObject]
              rfl
  | _ =>
      apply outcome?_otherwise (· ≠ .object) _ writes isGap nofun
      intro byte input notObject
      have notBrace : byte ≠ openBrace := by
        rintro rfl
        exact notObject rfl
      dsimp only
      rw [if_neg notBrace, outcome?_wrongType]

/-- Only null is read as nothing. -/
theorem reads_unit :
    Reads unit fun tree => if tree.shape = .null then some () else none := by
  intro tree core gap rest writes isGap delimited
  cases tree with
  | null =>
      cases writes
      change outcome? unit (gap ++ letterN :: ([letterU, 0x6c, 0x6c] ++ rest)) = _
      rw [unit, outcome?_token isGap rfl]
      exact outcome?_letters [letterU, 0x6c, 0x6c] rest
  | _ =>
      apply outcome?_otherwise (· ≠ .null) _ writes isGap nofun
      intro byte input notNull
      have notLetter : byte ≠ letterN := by
        rintro rfl
        exact notNull rfl
      dsimp only
      rw [if_neg notLetter, outcome?_wrongType]

/-- The object of a variant ends after its null. -/
theorem outcome?_variantEnd (result : Value) {value : Written} {more : List (String × Written)}
    {before after core tail : List UInt8} (isBefore : IsGap before) (isAfter : IsGap after)
    (writesValue : Writes value core)
    (writesRest : WritesList (WritesMember Writes) false more tail) :
    outcome?
        (do
          takeColon
          unit
          match ← peekToken with
          | none => fail .objectEnded .behind
          | some last =>
              if last = closeBrace then
                skipByte
                return result
              else fail .expectedValue .behind)
        (before ++ colon :: (after ++ (core ++ (tail ++ closeBrace :: rest)))) =
      if value.shape = .null ∧ more = [] then some (result, rest) else none := by
  have delimited : Delimited (tail ++ closeBrace :: rest) :=
    .list_append writesRest (.bracket .object rest)
  rw [outcome?_bind, outcome?_takeColon isBefore, Option.bind_some, outcome?_bind,
    reads_unit value core after _ writesValue isAfter delimited]
  dsimp only
  by_cases isNull : value.shape = .null
  · rw [if_pos isNull, Option.map_some, Option.bind_some]
    cases writesRest with
    | done isTailGap =>
        rw [outcome?_token isTailGap rfl, if_pos ⟨isNull, rfl⟩]
        rfl
    | next isTailGap _ _ _ =>
        rw [List.append_assoc, List.cons_append, outcome?_token isTailGap rfl,
          if_neg fun both => List.cons_ne_nil _ _ both.2]
        rfl
  · rw [if_neg isNull, if_neg fun both => isNull both.1]
    rfl

/-- A name is read alone or as the only key of an object, which then holds null. -/
theorem reads_variant (ofName? : String → Option Value) (known : List String) :
    Reads (variant ofName? known) (Written.variant? ofName?) := by
  intro tree core gap rest writes isGap delimited
  cases tree with
  | string text =>
      cases writes with
      | @string _ bytes writesText =>
          simp only [List.cons_append, List.append_assoc, List.nil_append]
          rw [variant, outcome?_token isGap rfl]
          dsimp only
          rw [if_pos rfl, outcome?_textAs_ahead _ _ writesText, variant?]
          cases ofName? text with
          | none => rfl
          | some value => rfl
  | object members =>
      cases writes with
      | @object _ inner writesMembers =>
          have notQuote : openBrace ≠ quote := by decide
          simp only [List.cons_append, List.append_assoc, List.nil_append]
          rw [variant, outcome?_token isGap rfl]
          dsimp only
          rw [if_neg notQuote, if_pos rfl, outcome?_bind, outcome?_skipByte, Option.bind_some,
            List.tail_cons, outcome?_bind]
          cases writesMembers with
          | done isInnerGap =>
              rw [variantKey, outcome?_token isInnerGap rfl]
              rfl
          | @first entry more innerGap _ tail isInnerGap writesEntry writesRest =>
              cases writesEntry with
              | @pair key value text before after core writesKey isBefore isAfter writesValue =>
                  have keyAhead (behind : List UInt8) :
                      outcome? variantKey (innerGap ++ quote :: behind) =
                        some ((), quote :: behind) := by
                    rw [variantKey, outcome?_token isInnerGap rfl]
                    rfl
                  simp only [List.cons_append, List.append_assoc]
                  rw [keyAhead, Option.bind_some]
                  dsimp only
                  rw [outcome?_bind, outcome?_textAs_ahead _ _ writesKey]
                  cases named : ofName? key with
                  | none =>
                      rw [outcome?_refuse, Option.bind_none]
                      cases value <;> cases more <;> simp [variant?, named]
                  | some result =>
                      rw [outcome?_pure, Option.bind_some]
                      apply (outcome?_variantEnd result isBefore isAfter writesValue writesRest).trans
                      cases value <;> cases more <;> simp [variant?, named, shape]
  | _ =>
      apply outcome?_otherwise (fun shape => shape ≠ .string ∧ shape ≠ .object) _ writes isGap
        ⟨nofun, nofun⟩
      intro byte input other
      have notQuote : byte ≠ quote := by
        rintro rfl
        exact other.1 rfl
      have notBrace : byte ≠ openBrace := by
        rintro rfl
        exact other.2 rfl
      dsimp only
      rw [if_neg notQuote, if_neg notBrace, outcome?_fail]

end Types

end Reader

end LightList.Json
