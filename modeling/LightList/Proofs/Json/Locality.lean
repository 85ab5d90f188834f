/-
This file holds the readers whose success does not depend on the bytes that they leave unread.

A reader that stops before the end of its input has seen all that it decides on, so it does the same
when more bytes follow. At the end of the input a number, for one, could still go on.
-/

import LightList.Json.TreeReader
import LightList.Proofs.Json.Running

namespace LightList.Json.Reader

/-- A local reader takes a front part of its input and does the same when more bytes follow. -/
structure IsLocal {Value : Type} (reader : Reader Value) : Prop where
  suffix {input rest : List UInt8} {value : Value} :
    reader input = .ok (value, rest) → rest <:+ input
  extend {input rest : List UInt8} {value : Value} (more : List UInt8) :
    reader input = .ok (value, rest) → rest ≠ [] →
      reader (input ++ more) = .ok (value, rest ++ more)

namespace IsLocal

variable {Value Result : Type}

theorem pure (value : Value) : IsLocal (pure value) where
  suffix succeeded := by
    cases succeeded
    exact List.suffix_rfl
  extend more succeeded _ := by
    cases succeeded
    rfl

theorem fail (cause : Cause) (mark : Mark) : IsLocal (fail cause mark : Reader Value) where
  suffix succeeded := by cases succeeded
  extend _ succeeded := by cases succeeded

/-- What the second reader leaves is also left by the first, so both stop before the end. -/
theorem bind {reader : Reader Value} {next : Value → Reader Result} (first : IsLocal reader)
    (second : ∀ value, IsLocal (next value)) : IsLocal (reader >>= next) where
  suffix succeeded := by
    obtain ⟨value, middle, taken, continued⟩ := bind_eq_ok succeeded
    exact ((second value).suffix continued).trans (first.suffix taken)
  extend more succeeded unread := by
    obtain ⟨value, middle, taken, continued⟩ := bind_eq_ok succeeded
    have middleUnread : middle ≠ [] := by
      rintro rfl
      exact unread (List.suffix_nil.1 ((second value).suffix continued))
    rw [bind_of_ok (first.extend more taken middleUnread)]
    exact (second value).extend more continued unread

theorem map (change : Value → Result) {reader : Reader Value} (original : IsLocal reader) :
    IsLocal (change <$> reader) := by
  have same : change <$> reader = reader >>= fun value => Pure.pure (change value) := by
    funext input
    rw [map_apply, bind_apply]
    rfl
  rw [same]
  exact original.bind fun value => pure (change value)

theorem ite {condition : Prop} [Decidable condition] {first second : Reader Value}
    (whenTrue : IsLocal first) (whenFalse : IsLocal second) :
    IsLocal (if condition then first else second) := by
  split
  · exact whenTrue
  · exact whenFalse

theorem settled {reader : Reader Value} (original : IsLocal reader) :
    IsLocal (settled reader) := by
  have same {input : List UInt8} {outcome : Value × List UInt8} :
      Reader.settled reader input = .ok outcome ↔ reader input = .ok outcome := by
    unfold Reader.settled
    split <;> simp_all
  constructor
  · intro input rest value succeeded
    exact original.suffix (same.1 succeeded)
  · intro input rest value more succeeded unread
    exact same.2 (original.extend more (same.1 succeeded) unread)

/-- A loop bounded by its own input may be given a longer bound, if only success matters. -/
theorem ofBounded (loop : List UInt8 → Reader Value) (eachLocal : ∀ bound, IsLocal (loop bound))
    (grows : ∀ {bound input : List UInt8} {outcome : Value × List UInt8} (more : List UInt8),
      loop bound input = .ok outcome → loop (bound ++ more) input = .ok outcome) :
    IsLocal fun input => loop input input where
  suffix {input _ _} succeeded := (eachLocal input).suffix succeeded
  extend {input _ _} more succeeded unread :=
    (eachLocal (input ++ more)).extend more (grows more succeeded) unread

/-- A reader that only skips bytes of one class is local. -/
theorem dropWhile (test : UInt8 → Bool) (value : List UInt8 → Value)
    (stable : ∀ input more : List UInt8, input.dropWhile test ≠ [] →
      value (input ++ more) = value input) :
    IsLocal fun input => .ok (value input, input.dropWhile test) where
  suffix succeeded := by
    cases succeeded
    exact List.dropWhile_suffix test
  extend {input _ _} more succeeded unread := by
    cases succeeded
    have same : (input ++ more).dropWhile test = input.dropWhile test ++ more := by
      rw [List.dropWhile_append]
      simp [unread]
    simp only [stable input more unread, same]

end IsLocal

theorem blanks_isLocal : IsLocal blanks := .dropWhile isBlank (fun _ => ()) fun _ _ _ => rfl

theorem skipDigits_isLocal : IsLocal skipDigits :=
  .dropWhile isDigit (fun _ => ()) fun _ _ _ => rfl

theorem countDigits_isLocal : IsLocal countDigits := by
  refine .dropWhile isDigit (fun input => (input.takeWhile isDigit).length) ?_
  intro input more unread
  have stops : (input.takeWhile isDigit).length ≠ input.length := by
    intro all
    have lengths := congrArg List.length (List.takeWhile_append_dropWhile (p := isDigit) (l := input))
    rw [List.length_append] at lengths
    exact unread (List.length_eq_zero_iff.1 (by omega))
  rw [List.takeWhile_append, if_neg stops]

theorem peek_isLocal : IsLocal peek where
  suffix succeeded := by
    cases succeeded
    exact List.suffix_rfl
  extend {input _ _} more succeeded unread := by
    cases succeeded
    cases input with
    | nil => exact (unread rfl).elim
    | cons byte rest => rfl

theorem skipByte_isLocal : IsLocal skipByte where
  suffix succeeded := by
    cases succeeded
    exact List.tail_suffix _
  extend {input _ _} more succeeded unread := by
    cases succeeded
    cases input with
    | nil => exact (unread rfl).elim
    | cons byte rest => rfl

theorem peekToken_isLocal : IsLocal peekToken := blanks_isLocal.bind fun _ => peek_isLocal

/-- A reader that decides on the next byte and fails at the end is local if its branches are. -/
theorem IsLocal.onToken {Value : Type} {cause : Cause} {mark : Mark} {body : UInt8 → Reader Value}
    (branches : ∀ byte, IsLocal (body byte)) :
    IsLocal (do
      match ← peekToken with
      | none => Reader.fail cause mark
      | some byte => body byte) := by
  refine peekToken_isLocal.bind fun found => ?_
  cases found with
  | none => exact .fail _ _
  | some byte => exact branches byte

/-- A reader that looks at the next byte is local when each of its cases is. -/
theorem IsLocal.onByte {Value : Type} {cause : Cause} {mark : Mark} {body : UInt8 → Reader Value}
    (branches : ∀ byte, IsLocal (body byte)) :
    IsLocal (do
      match ← peek with
      | none => Reader.fail cause mark
      | some byte => body byte) := by
  refine peek_isLocal.bind fun found => ?_
  cases found with
  | none => exact .fail _ _
  | some byte => exact branches byte

/-- The letters of a name are compared one by one. -/
theorem letters_isLocal (expected : List UInt8) : IsLocal (letters expected) := by
  induction expected with
  | nil => exact .pure ()
  | cons letter more inductionHypothesis =>
      refine .onByte fun byte => skipByte_isLocal.bind fun _ => ?_
      exact .ite inductionHypothesis (.fail _ _)

theorem closeList_isLocal : IsLocal closeList := by
  refine .onToken fun byte => .ite skipByte_isLocal (.ite ?_ (.fail _ _))
  exact skipByte_isLocal.bind fun _ => peekToken_isLocal.bind fun _ => .ite (.fail _ _) (.fail _ _)

theorem closeObject_isLocal : IsLocal closeObject :=
  .onToken fun _ => .ite skipByte_isLocal (.ite (.fail _ _) (.fail _ _))

theorem atItem_isLocal (isFirst : Bool) : IsLocal (atItem isFirst) := by
  refine .onToken fun byte => .ite (.pure _) (.ite (.pure _) (.ite ?_ (.fail _ _)))
  exact skipByte_isLocal.bind fun _ => .onToken fun _ => .ite (.fail _ _) (.pure _)

theorem atMember_isLocal (isFirst : Bool) : IsLocal (atMember isFirst) := by
  refine .onToken fun byte => .ite (.pure _) (.ite (.ite (.pure _) (.fail _ _)) (.ite ?_ (.fail _ _)))
  refine skipByte_isLocal.bind fun _ => .onToken fun _ => ?_
  exact .ite (.pure _) (.ite (.fail _ _) (.fail _ _))

theorem takeColon_isLocal : IsLocal takeColon :=
  .onToken fun _ => .ite skipByte_isLocal (.fail _ _)

section Lists

variable {Value : Type} {item : Reader Value}

theorem itemsWithin_isLocal (itemLocal : IsLocal item) (bound : List UInt8) (isFirst : Bool)
    (taken : List Value) : IsLocal (itemsWithin item bound isFirst taken) := by
  induction bound generalizing isFirst taken with
  | nil => exact .fail _ _
  | cons _ bound inductionHypothesis =>
      refine (atItem_isLocal isFirst).bind fun follows => .ite ?_ (.pure _)
      exact itemLocal.bind fun value => inductionHypothesis false (value :: taken)

/-- A bound that is longer than needed changes nothing. -/
theorem itemsWithin_grows {bound input : List UInt8} {isFirst : Bool} {taken : List Value}
    {outcome : List Value × List UInt8} (more : List UInt8)
    (succeeded : itemsWithin item bound isFirst taken input = .ok outcome) :
    itemsWithin item (bound ++ more) isFirst taken input = .ok outcome := by
  induction bound generalizing isFirst taken input with
  | nil => cases succeeded
  | cons _ bound inductionHypothesis =>
      obtain ⟨follows, rest, asked, continued⟩ := bind_eq_ok succeeded
      rw [List.cons_append, itemsWithin, bind_of_ok asked]
      split at continued
      · next isItem =>
          obtain ⟨value, behind, taken, remaining⟩ := bind_eq_ok continued
          rw [if_pos isItem, bind_of_ok taken]
          exact inductionHypothesis remaining
      · next isEnd =>
          rw [if_neg isEnd]
          exact continued

/-- The bound grows with the input, so longer input is read with a longer bound. -/
theorem items_isLocal (itemLocal : IsLocal item) : IsLocal (items item) :=
  .ofBounded (fun bound => itemsWithin item bound true [])
    (fun bound => itemsWithin_isLocal itemLocal bound true []) itemsWithin_grows

theorem item?_isLocal (itemLocal : IsLocal item) (isFirst : Bool) :
    IsLocal (item? item isFirst) := by
  refine (atItem_isLocal isFirst).bind fun follows => .ite ?_ (.pure _)
  exact itemLocal.bind fun value => .pure _

/-- A reader with its closing bracket is local when both are. -/
theorem enclosed_isLocal {body : Reader Value} {close : Reader Unit} (bodyLocal : IsLocal body)
    (closeLocal : IsLocal close) : IsLocal (enclosed body close) where
  suffix succeeded := by
    obtain ⟨middle, inside, closed⟩ := enclosed_eq_ok succeeded
    exact (closeLocal.suffix closed).trans (bodyLocal.suffix inside)
  extend more succeeded unread := by
    obtain ⟨middle, inside, closed⟩ := enclosed_eq_ok succeeded
    have middleUnread : middle ≠ [] := by
      rintro rfl
      exact unread (List.suffix_nil.1 (closeLocal.suffix closed))
    exact enclosed_of_ok (bodyLocal.extend more inside middleUnread)
      (closeLocal.extend more closed unread)

end Lists

end LightList.Json.Reader
