/-
This file says what readers make of their input when the fault of a refusal does not matter.
-/

import LightList.Proofs.Json.Grammar
import LightList.Proofs.Json.Running

namespace LightList.Json.Reader

/-- This is the value that is read and what is left, or none if the reader fails. -/
def outcome? {Value : Type} (reader : Reader Value) (input : List UInt8) :
    Option (Value × List UInt8) :=
  match reader input with
  | .ok result => some result
  | .error _ => none

section Steps

variable {Value Result : Type}

/-- The outcome leaves out only why a reader failed. -/
theorem outcome?_eq_some_iff {reader : Reader Value} {input : List UInt8}
    {result : Value × List UInt8} :
    outcome? reader input = some result ↔ reader input = .ok result := by
  unfold outcome?
  cases reader input <;> simp

@[simp] theorem outcome?_pure (value : Value) (input : List UInt8) :
    outcome? (pure value : Reader Value) input = some (value, input) := rfl

@[simp] theorem outcome?_fail (cause : Cause) (mark : Mark) (input : List UInt8) :
    outcome? (fail cause mark : Reader Value) input = none := rfl

@[simp] theorem outcome?_refuse (cause : Cause) (input : List UInt8) :
    outcome? (refuse cause : Reader Value) input = none := rfl

/-- Readers that follow one another hand the rest on. -/
theorem outcome?_bind (reader : Reader Value) (next : Value → Reader Result)
    (input : List UInt8) :
    outcome? (reader >>= next) input =
      (outcome? reader input).bind fun result => outcome? (next result.1) result.2 := by
  unfold outcome?
  rw [bind_apply]
  cases reader input <;> rfl

/-- A change of the result leaves the rest as it is. -/
theorem outcome?_map (change : Value → Result) (reader : Reader Value) (input : List UInt8) :
    outcome? (change <$> reader) input =
      (outcome? reader input).map fun result => (change result.1, result.2) := by
  unfold outcome?
  rw [map_apply]
  cases reader input <;> rfl

/-- Where a fault is placed does not matter. -/
@[simp] theorem outcome?_settled (reader : Reader Value) (input : List UInt8) :
    outcome? (settled reader) input = outcome? reader input := by
  unfold outcome? settled
  cases reader input <;> rfl

/-- This is what a bracketed reader makes of its input. -/
theorem outcome?_enclosed (body : Reader Value) (close : Reader Unit) (input : List UInt8) :
    outcome? (enclosed body close) input =
      (outcome? body input).bind fun result =>
        (outcome? close result.2).map fun closed => (result.1, closed.2) := by
  unfold outcome? enclosed
  cases body input with
  | error fault => rfl
  | ok result =>
      dsimp only [Option.bind_some]
      cases close result.2 <;> rfl

@[simp] theorem outcome?_wrongType (wanted : String) (input : List UInt8) :
    outcome? (wrongType wanted : Reader Value) input = none := by
  cases found : outcome? (wrongType wanted : Reader Value) input with
  | none => rfl
  | some result => exact (wrongType_ne_ok wanted input result (outcome?_eq_some_iff.1 found)).elim

end Steps

@[simp] theorem outcome?_peek (input : List UInt8) :
    outcome? peek input = some (input.head?, input) := rfl

@[simp] theorem outcome?_skipByte (input : List UInt8) :
    outcome? skipByte input = some ((), input.tail) := rfl

@[simp] theorem outcome?_skipDigits (input : List UInt8) :
    outcome? skipDigits input = some ((), input.dropWhile isDigit) := rfl

@[simp] theorem outcome?_atDigit (input : List UInt8) :
    outcome? atDigit input = some (input.head?.any isDigit, input) := rfl

@[simp] theorem outcome?_peekToken (input : List UInt8) :
    outcome? peekToken input =
      some ((input.dropWhile isBlank).head?, input.dropWhile isBlank) := rfl

/-- A gap before a byte that is not blank is skipped. -/
theorem dropWhile_gap {gap : List UInt8} (isGap : IsGap gap) (input : List UInt8) :
    (gap ++ input).dropWhile isBlank = input.dropWhile isBlank :=
  List.dropWhile_append_of_pos (List.all_eq_true.1 isGap)

/-- This is the byte that the reader decides on. -/
theorem outcome?_token {Value : Type} {gap tail : List UInt8} {byte : UInt8} (isGap : IsGap gap)
    (solid : isBlank byte = false) (next : Option UInt8 → Reader Value) :
    outcome? (peekToken >>= next) (gap ++ byte :: tail) =
      outcome? (next (some byte)) (byte :: tail) := by
  have notBlank : ¬ isBlank byte = true := by
    rw [solid]
    exact Bool.false_ne_true
  rw [outcome?_bind, outcome?_peekToken, dropWhile_gap isGap,
    List.dropWhile_cons_of_neg notBlank, Option.bind_some, List.head?_cons]

end LightList.Json.Reader
