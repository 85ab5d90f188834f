/-
This file says what the steps of readers do with the unread bytes.
-/

import LightList.Json.Typed
import Mathlib.Data.List.TakeWhile

namespace LightList.Json.Reader

section Steps

variable {Value Result : Type}

/-- The second reader goes on where the first one stopped. -/
theorem bind_apply (reader : Reader Value) (next : Value → Reader Result) (input : List UInt8) :
    (reader >>= next) input =
      match reader input with
      | .ok (value, rest) => next value rest
      | .error fault => .error fault := by
  change (reader input >>= fun result => next result.1 result.2) = _
  cases reader input <;> rfl

/-- A sequence succeeds only when both of its parts do. -/
theorem bind_eq_ok {reader : Reader Value} {next : Value → Reader Result} {input : List UInt8}
    {outcome : Result × List UInt8} (succeeded : (reader >>= next) input = .ok outcome) :
    ∃ value rest, reader input = .ok (value, rest) ∧ next value rest = .ok outcome := by
  rw [bind_apply] at succeeded
  split at succeeded
  · next value rest first => exact ⟨value, rest, first, succeeded⟩
  · cases succeeded

theorem bind_of_ok {reader : Reader Value} {next : Value → Reader Result}
    {input rest : List UInt8} {value : Value} (first : reader input = .ok (value, rest)) :
    (reader >>= next) input = next value rest := by
  rw [bind_apply, first]

@[simp] theorem pure_apply (value : Value) (input : List UInt8) :
    (pure value : Reader Value) input = .ok (value, input) := rfl

@[simp] theorem fail_apply (cause : Cause) (mark : Mark) (input : List UInt8) :
    (fail cause mark : Reader Value) input = .error ⟨cause, mark, input⟩ := rfl

/-- A change of the result leaves the rest and every fault as they are. -/
theorem map_apply (change : Value → Result) (reader : Reader Value) (input : List UInt8) :
    (change <$> reader) input =
      match reader input with
      | .ok (value, rest) => .ok (change value, rest)
      | .error fault => .error fault := by
  change (reader input >>= fun result => pure (change result.1, result.2)) = _
  cases reader input <;> rfl

theorem enclosed_of_ok {body : Reader Value} {close : Reader Unit}
    {input middle final : List UInt8} {value : Value} (inside : body input = .ok (value, middle))
    (closed : close middle = .ok ((), final)) :
    enclosed body close input = .ok (value, final) := by
  simp only [enclosed, inside, closed]

/-- What stands between brackets is read first and then the closing one. -/
theorem enclosed_eq_ok {body : Reader Value} {close : Reader Unit} {input final : List UInt8}
    {value : Value} (succeeded : enclosed body close input = .ok (value, final)) :
    ∃ middle, body input = .ok (value, middle) ∧ close middle = .ok ((), final) := by
  unfold enclosed at succeeded
  split at succeeded
  · next inner middle inside =>
      split at succeeded
      · next _ rest closed =>
          cases succeeded
          exact ⟨middle, inside, closed⟩
      · cases succeeded
  · cases succeeded

end Steps

@[simp] theorem peek_apply (input : List UInt8) : peek input = .ok (input.head?, input) := rfl

@[simp] theorem skipByte_apply (input : List UInt8) : skipByte input = .ok ((), input.tail) := rfl

@[simp] theorem peekToken_apply (input : List UInt8) :
    peekToken input = .ok ((input.dropWhile isBlank).head?, input.dropWhile isBlank) := rfl

/-- A string is read when its bytes can be collected and are UTF-8. -/
theorem text_eq_ok {input rest : List UInt8} {value : String} :
    text input = .ok (value, rest) ↔
      ∃ bytes, textWithin input [] input = .ok (bytes, rest) ∧
        textOfBytes? bytes = some value := by
  unfold text
  constructor
  · intro succeeded
    split at succeeded
    · cases succeeded
    · next bytes behind collected =>
        split at succeeded
        · next decoded =>
            cases succeeded
            exact ⟨bytes, collected, decoded⟩
        · cases succeeded
  · rintro ⟨bytes, collected, decoded⟩
    simp only [collected, decoded]

/-- Nothing is left behind the blanks exactly if there are only blanks. -/
theorem dropWhile_isBlank_eq_nil {input : List UInt8} :
    input.dropWhile isBlank = [] ↔ input.all isBlank = true := by
  rw [List.dropWhile_eq_nil_iff, List.all_eq_true]

/-- Only blanks may follow a document. -/
theorem ended_apply (input : List UInt8) :
    ended input =
      if input.all isBlank then .ok ((), []) else
        .error ⟨.trailingCharacters, .ahead, input.dropWhile isBlank⟩ := by
  simp only [ended, bind_apply, peekToken_apply]
  cases left : input.dropWhile isBlank with
  | nil =>
      rw [if_pos (dropWhile_isBlank_eq_nil.1 left)]
      rfl
  | cons byte rest =>
      have notBlank : ¬ input.all isBlank = true := by
        rw [← dropWhile_isBlank_eq_nil, left]
        exact List.cons_ne_nil byte rest
      rw [if_neg notBlank]
      rfl

/-- A document holds one value, and only blanks follow it. -/
theorem document_eq_ok {Value : Type} {reader : Reader Value} {bytes : List UInt8}
    {value : Value} :
    document reader bytes = .ok value ↔
      ∃ rest, reader bytes = .ok (value, rest) ∧ rest.all isBlank = true := by
  cases read : reader bytes with
  | error fault => simp [document, bind_apply, read]
  | ok result =>
      by_cases blank : result.2.all isBlank = true
      · simp only [document, bind_apply, read, ended_apply, if_pos blank, pure_apply,
          Except.ok.injEq]
        constructor
        · intro same
          exact ⟨result.2, Prod.ext same rfl, blank⟩
        · rintro ⟨rest, same, _⟩
          rw [same]
      · simp only [document, bind_apply, read, ended_apply, if_neg blank]
        constructor
        · intro impossible
          cases impossible
        · rintro ⟨rest, same, blankRest⟩
          rw [Except.ok.inj same] at blank
          exact (blank blankRest).elim

/-- A reader that takes one bracket finds it behind blanks, and otherwise it fails. -/
theorem closer_eq_ok_iff {bracket : UInt8} {cause : Cause} {otherwise : UInt8 → Reader Unit}
    (refuses : ∀ byte input outcome, otherwise byte input ≠ .ok outcome)
    {input rest : List UInt8} :
    (do
      match ← peekToken with
      | none => fail cause .ahead
      | some byte => if byte = bracket then skipByte else otherwise byte) input = .ok ((), rest) ↔
      input.dropWhile isBlank = bracket :: rest := by
  rw [bind_apply, peekToken_apply]
  cases input.dropWhile isBlank with
  | nil => simp
  | cons byte behind =>
      change (if byte = bracket then skipByte else otherwise byte) (byte :: behind) = _ ↔ _
      by_cases same : byte = bracket
      · simp [same]
      · rw [if_neg same]
        constructor
        · intro succeeded
          exact (refuses byte _ _ succeeded).elim
        · intro equal
          exact (same (List.cons.inj equal).1).elim

/-- A list is closed exactly if its bracket comes next behind blanks. -/
theorem closeList_eq_ok_iff {input rest : List UInt8} :
    closeList input = .ok ((), rest) ↔ input.dropWhile isBlank = closeBracket :: rest := by
  refine closer_eq_ok_iff ?_
  intro byte input outcome read
  split at read
  · obtain ⟨_, _, _, continued⟩ := bind_eq_ok read
    obtain ⟨_, _, _, refused⟩ := bind_eq_ok continued
    split at refused
    · cases refused
    · cases refused
  · cases read

/-- An object is closed exactly if its brace comes next behind blanks. -/
theorem closeObject_eq_ok_iff {input rest : List UInt8} :
    closeObject input = .ok ((), rest) ↔ input.dropWhile isBlank = closeBrace :: rest := by
  refine closer_eq_ok_iff ?_
  intro byte input outcome read
  split at read
  · cases read
  · cases read

/-- A value of another type is never read, whatever it is. -/
theorem wrongType_ne_ok {Value : Type} (wanted : String) (input : List UInt8)
    (outcome : Value × List UInt8) : wrongType wanted input ≠ .ok outcome := by
  intro succeeded
  unfold wrongType settled at succeeded
  split at succeeded
  · next result read =>
      obtain ⟨other, rest, described, refused⟩ := bind_eq_ok read
      cases refused
  · cases succeeded

section Records

variable {Value : Type} {name : String} {ofObject ofList : Reader Value}

/-- What follows the opening bracket decides alone how a structure is read. -/
theorem record_of_list {input inner : List UInt8}
    (opened : input.dropWhile isBlank = openBracket :: inner) :
    record name ofObject ofList input = enclosed ofList closeList inner := by
  rw [record, bind_apply, peekToken_apply, opened]
  rfl

/-- An opening brace decides for the members of a record. -/
theorem record_of_object {name : String} {ofObject ofList : Reader Value}
    {input inner : List UInt8} (opened : input.dropWhile isBlank = openBrace :: inner) :
    record name ofObject ofList input = enclosed ofObject closeObject inner := by
  rw [record, bind_apply, peekToken_apply, opened]
  rfl

/-- Only an opening bracket or brace makes a structure. -/
theorem record_eq_ok {input : List UInt8} {outcome : Value × List UInt8}
    (succeeded : record name ofObject ofList input = .ok outcome) :
    ∃ inner,
      input.dropWhile isBlank = openBracket :: inner ∧
          enclosed ofList closeList inner = .ok outcome ∨
        input.dropWhile isBlank = openBrace :: inner ∧
          enclosed ofObject closeObject inner = .ok outcome := by
  rw [record, bind_apply, peekToken_apply] at succeeded
  cases found : input.dropWhile isBlank with
  | nil =>
      rw [found] at succeeded
      cases succeeded
  | cons byte inner =>
      rw [found] at succeeded
      dsimp only [List.head?_cons] at succeeded
      refine ⟨inner, ?_⟩
      split at succeeded
      · next isList => exact .inl ⟨by rw [isList], succeeded⟩
      · split at succeeded
        · next isObject => exact .inr ⟨by rw [isObject], succeeded⟩
        · exact (wrongType_ne_ok _ _ _ succeeded).elim

end Records

end LightList.Json.Reader
