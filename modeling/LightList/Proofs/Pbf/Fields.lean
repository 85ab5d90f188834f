/-
This file writes messages as rows of tagged fields and shows that a message is read field by field.
-/

import LightList.Proofs.Pbf.Taking

namespace LightList.Pbf

/-- The payload of a field is written in the way that the wire type says. -/
structure WireField where
  number : Nat
  wireType : Nat
  payload : List UInt8

namespace WireField

def ofNumber (number value : Nat) : WireField := ⟨number, 0, varint value⟩

def ofContent (number : Nat) (content : List UInt8) : WireField :=
  ⟨number, 2, Wire.measured content⟩

/-- Several numbers share one field, and without any number there is no field. -/
def packed {Item : Type} (number : Nat) (code : Item → Nat) (items : List Item) : List WireField :=
  if items.isEmpty then [] else [ofContent number (items.flatMap fun item => varint (code item))]

def tag (field : WireField) : Tag := ⟨field.number, field.wireType⟩

def bytes (field : WireField) : List UInt8 :=
  varint (field.number * 8 + field.wireType) ++ field.payload

/-- The number and the wire type make a tag. -/
def IsProper (field : WireField) : Prop :=
  (0 < field.number ∧ field.number < Nat.pow 2 29) ∧ field.wireType ≤ 5

theorem bytes_ne_nil (field : WireField) : field.bytes ≠ [] := by
  intro none
  have lengths := congrArg List.length none
  rw [bytes, List.length_append, List.length_nil] at lengths
  have := length_varint_pos (field.number * 8 + field.wireType)
  omega

end WireField

/-- The fields of a message stand in a row. -/
def writeFields (fields : List WireField) : List UInt8 := fields.flatMap WireField.bytes

namespace Wire

section Parts

variable {rest : List UInt8}

/-- The tag of a field is read back. -/
theorem takes_tag {field : WireField} (proper : field.IsProper) :
    Takes tag (varint (field.number * 8 + field.wireType)) rest field.tag := by
  obtain ⟨⟨positive, short⟩, known⟩ := proper
  simp only [Nat.pow_eq] at short
  have fits : field.number * 8 + field.wireType < Nat.pow 2 32 := by
    simp only [Nat.pow_eq]
    omega
  have same : (field.number * 8 + field.wireType).toUInt32.toNat =
      field.number * 8 + field.wireType := by simpa using fits
  have number : (field.number * 8 + field.wireType) / 8 = field.number := by omega
  have wireType : (field.number * 8 + field.wireType) % 8 = field.wireType := by omega
  refine (takes_uint32 fits).andThen ?_
  dsimp only
  rw [same, number, wireType, if_neg (by omega)]
  exact takes_pure _

/-- Without a flaw the end of a span is where its bytes end. -/
theorem takes_atEnd : Takes atEnd [] rest rest.isEmpty := by
  intro span sound split
  refine ⟨span, ?_, split, by rw [split, List.nil_append], rfl⟩
  have bytes : span.bytes = rest := split
  unfold atEnd
  rw [bytes, sound.flawless]
  cases rest with
  | nil => cases span.ending <;> rfl
  | cons byte more => rfl

theorem takes_refill : Takes refill [] rest () := by
  intro span sound split
  have kept : span.refill.bytes = span.bytes ∧ span.refill.position = span.position ∧
      span.refill.source = span.source := by
    unfold Span.refill
    split
    · exact ⟨rfl, rfl, rfl⟩
    · exact ⟨rfl, rfl, rfl⟩
  have bytes : span.bytes = rest := split
  exact ⟨span.refill, rfl, kept.1.trans bytes, by rw [kept.2.1, bytes], kept.2.2⟩

/-- A number of an unknown field is passed. -/
theorem takes_skip_number {value : Nat} (fits : value < Nat.pow 2 64) :
    Takes (skip 0) (varint value) rest () :=
  (takes_uint64 fits).map fun _ => ()

/-- A message is a value inside its length, whatever else is open. -/
theorem takes_message {Value : Type} {body : Reader Value} {content : List UInt8} {value : Value}
    (inner : Takes body content [] value) : Takes (message body) (measured content) rest value := by
  refine takes_nested ?_
  intro span sound split
  obtain ⟨final, read, leaves⟩ :=
    inner { span with depth := span.depth + 1 } ⟨sound.flawless, sound.placed⟩ split
  exact ⟨final, read, leaves.bytes, leaves.position, leaves.source⟩

end Parts

section Items

variable {Item Value : Type} {item : Reader Value} {write : Item → List UInt8}
  {value : Item → Value}

/-- Each item takes a byte at least, so the bytes bound the loop. -/
theorem takes_itemsWithin {items : List Item}
    (each : ∀ one ∈ items, ∀ rest, Takes item (write one) rest (value one))
    (written : ∀ one, write one ≠ []) {bound : List UInt8} (enough : items.length ≤ bound.length)
    (taken : Array Value) :
    Takes (itemsWithin item bound taken) (items.flatMap write) []
      (taken ++ (items.map value).toArray) := by
  induction items generalizing bound taken with
  | nil =>
      rw [List.map_nil, Array.append_empty]
      cases bound with
      | nil => exact takes_atEnd.andThen (takes_pure taken)
      | cons byte bound => exact takes_atEnd.andThen (takes_pure taken)
  | cons one others inductionHypothesis =>
      cases bound with
      | nil => cases enough
      | cons byte bound =>
          have later := inductionHypothesis
            (fun other member => each other (List.mem_cons_of_mem _ member))
            (Nat.le_of_succ_le_succ enough) (taken.push (value one))
          have more : ((one :: others).flatMap write).isEmpty = false := by
            rw [List.flatMap_cons, List.isEmpty_eq_false_iff]
            exact List.append_ne_nil_of_left_ne_nil (written one) _
          have same : taken.push (value one) ++ (others.map value).toArray =
              taken ++ ((one :: others).map value).toArray := by simp
          rw [← same]
          have start : Takes atEnd [] ((one :: others).flatMap write ++ []) false := by
            rw [← more, List.append_nil]
            exact takes_atEnd
          have first := each one List.mem_cons_self (others.flatMap write ++ [])
          have filled : Takes refill [] ((one :: others).flatMap write ++ []) () := takes_refill
          exact start.bind (filled.bind (first.bind later))

/-- There are at least as many bytes as items. -/
theorem length_le_flatMap (written : ∀ one, write one ≠ []) (items : List Item) :
    items.length ≤ (items.flatMap write).length := by
  induction items with
  | nil => exact Nat.le_refl 0
  | cons one others inductionHypothesis =>
      have positive := List.length_pos_iff.2 (written one)
      rw [List.flatMap_cons, List.length_append, List.length_cons]
      omega

/-- Packed items are read up to the end of their field. -/
theorem takes_packed {items : List Item}
    (each : ∀ one ∈ items, ∀ rest, Takes item (write one) rest (value one))
    (written : ∀ one, write one ≠ []) {rest : List UInt8} :
    Takes (Wire.packed item) (measured (items.flatMap write)) rest (items.map value).toArray := by
  refine takes_nested ?_
  intro span sound split
  have enough : items.length ≤ span.bytes.length := by
    rw [split, List.append_nil]
    exact length_le_flatMap written items
  have all := takes_itemsWithin each written enough #[] span sound split
  rwa [Array.empty_append] at all

end Items

section Rows

variable {State : Type} {field : State → Tag → Reader State}

/-- Reading the fields one after the other leads from one state to another. -/
inductive Steps (field : State → Tag → Reader State) : State → List WireField → State → Prop where
  | done {state : State} : Steps field state [] state
  | next {state middle final : State} {first : WireField} {others : List WireField}
      (proper : first.IsProper)
      (step : ∀ rest, Takes (field state first.tag) first.payload rest middle)
      (further : Steps field middle others final) : Steps field state (first :: others) final

/-- The fields of a message are read one after another, up to its last byte. -/
theorem takes_fieldsWithin {row : List WireField} {state final : State}
    (steps : Steps field state row final) {bound : List UInt8} (enough : row.length ≤ bound.length) :
    Takes (fieldsWithin field bound state) (writeFields row) [] final := by
  induction steps generalizing bound with
  | done =>
      cases bound with
      | nil => exact takes_atEnd.andThen (takes_pure _)
      | cons byte bound => exact takes_atEnd.andThen (takes_pure _)
  | @next state middle final first others proper step further inductionHypothesis =>
      cases bound with
      | nil => cases enough
      | cons byte bound =>
          -- A field has bytes, so the end is not reached before it.
          have more : (writeFields (first :: others)).isEmpty = false := by
            rw [writeFields, List.flatMap_cons, List.isEmpty_eq_false_iff]
            exact List.append_ne_nil_of_left_ne_nil first.bytes_ne_nil _
          have start : Takes atEnd [] (writeFields (first :: others) ++ []) false := by
            rw [← more, List.append_nil]
            exact takes_atEnd
          have later := inductionHypothesis (Nat.le_of_succ_le_succ enough)
          have row : Takes (tag >>= fun next => field state next >>= fieldsWithin field bound)
              (varint (first.number * 8 + first.wireType) ++ (first.payload ++ writeFields others))
              [] final :=
            (takes_tag proper).bind ((step (writeFields others ++ [])).bind later)
          rw [← List.append_assoc] at row
          exact start.bind row

/-- A message is read as the state that its fields lead to. -/
theorem takes_fields {row : List WireField} {state final : State}
    (steps : Steps field state row final) :
    Takes (fields field state) (writeFields row) [] final := by
  intro span sound split
  have enough : row.length ≤ span.bytes.length := by
    rw [split, List.append_nil]
    exact length_le_flatMap WireField.bytes_ne_nil row
  exact takes_fieldsWithin steps enough span sound split

namespace Steps

theorem append {state middle final : State} {front back : List WireField}
    (one : Steps field state front middle) (other : Steps field middle back final) :
    Steps field state (front ++ back) final := by
  induction one with
  | done => exact other
  | next proper step further inductionHypothesis =>
      exact .next proper step (inductionHypothesis other)

/-- Fields of one kind, one for each item, are gone through item by item. -/
theorem each {Item : Type} {items : List Item} {write : Item → WireField}
    (state : List Item → State)
    (step : ∀ before, ∀ one ∈ items,
      Steps field (state before) [write one] (state (before ++ [one]))) :
    Steps field (state []) (items.map write) (state items) := by
  have from_ (before later : List Item) (inside : ∀ one ∈ later, one ∈ items) :
      Steps field (state before) (later.map write) (state (before ++ later)) := by
    induction later generalizing before with
    | nil =>
        rw [List.append_nil]
        exact .done
    | cons one others inductionHypothesis =>
        have first := step before one (inside one List.mem_cons_self)
        have further := inductionHypothesis (before ++ [one])
          fun other member => inside other (List.mem_cons_of_mem _ member)
        rw [List.append_assoc] at further
        exact first.append further
  exact from_ [] items fun one member => member

/-- Fields that change nothing are gone through, however many there are. -/
theorem dropped {Item : Type} {items : List Item} {write : Item → WireField} {state : State}
    (step : ∀ one ∈ items, Steps field state [write one] state) :
    Steps field state (items.map write) state :=
  Steps.each (fun _ => state) fun _ => step

/-- Fields that are gathered are kept in their order. -/
theorem gathered {Item Value : Type} {items : List Item} {write : Item → WireField}
    {value : Item → Value} (put : Array Value → State)
    (step : ∀ before, ∀ one ∈ items,
      Steps field (put before) [write one] (put (before.push (value one)))) :
    Steps field (put #[]) (items.map write) (put (items.map value).toArray) := by
  refine Steps.each (fun before => put (before.map value).toArray) fun before one member => ?_
  have pushed : ((before ++ [one]).map value).toArray =
      (before.map value).toArray.push (value one) := by
    rw [List.map_append, List.push_toArray]
    rfl
  rw [pushed]
  exact step _ one member

/-- A field that may be missing leaves the state as it is when it is. -/
theorem optional {Item : Type} {item : Option Item} {write : Item → WireField} {state final : State}
    (missing : item = none → final = state)
    (step : ∀ one, item = some one → Steps field state [write one] final) :
    Steps field state (item.toList.map write) final := by
  cases item with
  | none =>
      rw [missing rfl]
      exact .done
  | some one => exact step one rfl

section Kinds

variable {state final : State} {number : Nat}

/-- A field that holds a number makes one step. -/
theorem ofNumber {code : Nat} (proper : 0 < number ∧ number < Nat.pow 2 29)
    (step : ∀ rest, Takes (field state ⟨number, 0⟩) (varint code) rest final) :
    Steps field state [.ofNumber number code] final :=
  .next ⟨proper, Nat.zero_le 5⟩ step .done

/-- A field that holds content makes one step. -/
theorem ofContent {written : List UInt8} (proper : 0 < number ∧ number < Nat.pow 2 29)
    (step : ∀ rest, Takes (field state ⟨number, 2⟩) (measured written) rest final) :
    Steps field state [.ofContent number written] final :=
  .next ⟨proper, (by decide : 2 ≤ 5)⟩ step .done

/-- A number that is left out has the value that the state starts with. -/
theorem defaulted {Value : Type} {code : Value → Nat} {reader : Reader Value}
    {value? : Option Value} (start : Value) (put : Value → State)
    (proper : 0 < number ∧ number < Nat.pow 2 29)
    (takes : ∀ value rest, Takes reader (varint (code value)) rest value)
    (reads : field (put start) ⟨number, 0⟩ = reader >>= fun value => pure (put value)) :
    Steps field (put start) (value?.toList.map fun value => .ofNumber number (code value))
      (put (value?.getD start)) := by
  refine .optional (fun missing => ?_) (fun value present => .ofNumber proper fun rest => ?_)
  · rw [missing, Option.getD_none]
  · rw [present, Option.getD_some, reads]
    exact (takes value rest).map put

/-- Without items nothing is written and nothing changes. -/
theorem packed {Item Value : Type} {reader : Reader Value} {items : List Item} {code : Item → Nat}
    {value : Item → Value} (put : Array Value → State)
    (proper : 0 < number ∧ number < Nat.pow 2 29)
    (takes : ∀ one ∈ items, ∀ rest, Takes reader (varint (code one)) rest (value one))
    (reads : field state ⟨number, 2⟩ = repeated 2 reader #[] >>= fun values => pure (put values))
    (unchanged : put #[] = state) :
    Steps field state (WireField.packed number code items) (put (items.map value).toArray) := by
  cases items with
  | nil =>
      rw [← unchanged]
      exact .done
  | cons one others =>
      have written (one : Item) : varint (code one) ≠ [] :=
        List.ne_nil_of_length_pos (length_varint_pos _)
      refine .ofContent proper fun rest => ?_
      have all : Takes (Wire.packed reader) _ rest _ := takes_packed takes written
      have joined := (all.map (#[] ++ ·)).map put
      rw [Array.empty_append] at joined
      rw [reads]
      exact joined

end Kinds

end Steps

end Rows

end Wire

end LightList.Pbf
