/-
This file shows that readers take finite floats only.

A property of the values that a reader takes is followed through the steps that the reader is built
from. A number that grows beyond the finite floats is refused, and the digits of an integer fit 64 bits.
-/

import LightList.Proofs.Decimal.FloatSums
import LightList.Proofs.Decimal.ScaledRounding
import LightList.Proofs.Json.Running

namespace LightList.Json.Reader

/-- Every value that the reader takes has the property, whatever the input. -/
structure Gives {Value : Type} (reader : Reader Value) (property : Value → Prop) : Prop where
  holds {input rest : List UInt8} {value : Value} :
    reader input = .ok (value, rest) → property value

namespace Gives

variable {Value Result : Type} {property : Value → Prop} {target : Result → Prop}

theorem pure {value : Value} (holds : property value) : Gives (pure value) property where
  holds succeeded := by
    cases succeeded
    exact holds

theorem fail (cause : Cause) (mark : Mark) : Gives (fail cause mark) property where
  holds succeeded := by cases succeeded

/-- What the first reader gives may be used to show what the second one does. -/
theorem bind {reader : Reader Value} {next : Value → Reader Result} (first : Gives reader property)
    (second : ∀ value, property value → Gives (next value) target) :
    Gives (reader >>= next) target where
  holds succeeded := by
    obtain ⟨value, middle, read, continued⟩ := bind_eq_ok succeeded
    exact (second value (first.holds read)).holds continued

/-- Nothing need be known of a value that is not looked at again. -/
theorem after {reader : Reader Value} {next : Value → Reader Result}
    (second : ∀ value, Gives (next value) target) : Gives (reader >>= next) target where
  holds succeeded := by
    obtain ⟨value, middle, _, continued⟩ := bind_eq_ok succeeded
    exact (second value).holds continued

theorem map (change : Value → Result) {reader : Reader Value}
    (original : Gives reader fun value => target (change value)) :
    Gives (change <$> reader) target where
  holds succeeded := by
    rw [map_apply] at succeeded
    split at succeeded
    · next value middle read =>
        cases succeeded
        exact original.holds read
    · cases succeeded

theorem ite {condition : Prop} [Decidable condition] {first second : Reader Value}
    (whenTrue : Gives first property) (whenFalse : Gives second property) :
    Gives (if condition then first else second) property := by
  split
  · exact whenTrue
  · exact whenFalse

/-- Where the cursor is put does not change what is given. -/
theorem settled {reader : Reader Value} (original : Gives reader property) :
    Gives (settled reader) property where
  holds succeeded := by
    unfold Reader.settled at succeeded
    split at succeeded
    · next result read =>
        rw [Except.ok.inj succeeded] at read
        exact original.holds read
    · cases succeeded

theorem enclosed {body : Reader Value} {close : Reader Unit} (inside : Gives body property) :
    Gives (enclosed body close) property where
  holds succeeded := by
    obtain ⟨middle, read, _⟩ := enclosed_eq_ok succeeded
    exact inside.holds read

/-- A reader that looks at the next byte behind blanks has one case for each byte. -/
theorem onToken {cause : Cause} {mark : Mark} {body : UInt8 → Reader Value}
    (branches : ∀ byte, Gives (body byte) property) :
    Gives (do
      match ← peekToken with
      | none => Reader.fail cause mark
      | some byte => body byte) property := by
  apply Gives.after
  intro found
  cases found with
  | none => exact .fail _ _
  | some byte => exact branches byte

theorem onByte {cause : Cause} {mark : Mark} {body : UInt8 → Reader Value}
    (branches : ∀ byte, Gives (body byte) property) :
    Gives (do
      match ← peek with
      | none => Reader.fail cause mark
      | some byte => body byte) property := by
  apply Gives.after
  intro found
  cases found with
  | none => exact .fail _ _
  | some byte => exact branches byte

theorem wrongType (wanted : String) : Gives (wrongType wanted) property where
  holds succeeded := (wrongType_ne_ok _ _ _ succeeded).elim

end Gives

section Numbers

/-- The float is finite, and the integer is one that fits 64 bits. -/
def IsHeld : Number → Prop
  | .integer value => value.natAbs ≤ 2 ^ 64
  | .float value => value.isFinite = true

/-- The collected digits stay below the limit, as a further one is only taken if they do. -/
theorem collect_lt {limit value count : Nat} {input : List UInt8} (small : value < limit) :
    (collect limit value count input).value < limit := by
  induction input generalizing value count with
  | nil => exact small
  | cons byte rest inductionHypothesis =>
      unfold collect
      split
      · next joins => exact inductionHypothesis joins.2
      · exact small

theorem collected_gives {limit value : Nat} (small : value < limit) :
    Gives (collected limit value) fun result => result.1 < limit where
  holds succeeded := by
    cases succeeded
    exact collect_lt small

/-- A float that has a size is finite under either sign. -/
theorem isFinite_signed {size : ℚ} {value : Float} (sized : Decimal.IsSized .positive size value)
    (negative : Bool) : (signed negative value).isFinite = true := by
  cases negative with
  | false => exact sized.isFinite
  | true => exact sized.neg.isFinite

/-- A significand that is too large after scaling is refused, so what is read is finite. -/
theorem scaledFloat_gives (negative : Bool) (significand : Nat) (exponent : Int) :
    Gives (scaledFloat negative significand exponent) fun value => value.isFinite = true := by
  unfold scaledFloat
  split
  · next value scaled =>
      obtain ⟨size, sized⟩ := Decimal.exists_of_scaled? scaled
      exact .pure (isFinite_signed sized negative)
  · exact .fail _ _

/-- An exponent that does not fit gives zero or is refused. -/
theorem exponentOverflow_gives (negative : Bool) (significand : Nat) (below : Bool) :
    Gives (exponentOverflow negative significand below) fun value => value.isFinite = true := by
  apply Gives.ite
  · exact .after fun _ => .fail _ _
  · have isZero : Decimal.IsSized .positive 0 0 := by
      have sized := Decimal.isSized_toFloat (by decide : 0 < 2 ^ 53)
      rwa [Nat.cast_zero] at sized
    exact .after fun _ => .pure (isFinite_signed isZero negative)

/-- A numeral with an exponent gives a finite float. -/
theorem exponentPart_gives (negative : Bool) (significand : Nat) (start : Int) :
    Gives (exponentPart negative significand start) fun value => value.isFinite = true := by
  apply Gives.after
  intro _
  apply Gives.after
  intro below
  apply Gives.onByte
  intro byte
  apply Gives.after
  intro _
  refine .ite (?_) (.fail _ _)
  apply Gives.after
  intro collected
  apply Gives.after
  intro more
  exact .ite (exponentOverflow_gives _ _ _) (scaledFloat_gives _ _ _)

theorem exponentOrEnd_gives (negative : Bool) (significand : Nat) (exponent : Int) :
    Gives (exponentOrEnd negative significand exponent) fun value => value.isFinite = true :=
  .after fun _ => .ite (exponentPart_gives _ _ _) (scaledFloat_gives _ _ _)

/-- A numeral with a fraction gives a finite float. -/
theorem fractionPart_gives (negative : Bool) (significand : Nat) (exponent : Int) :
    Gives (fractionPart negative significand exponent) fun value => value.isFinite = true := by
  apply Gives.after
  intro _
  apply Gives.onByte
  intro byte
  refine .ite (?_) (.fail _ _)
  exact .after fun collected => .after fun _ => exponentOrEnd_gives _ _ _

/-- A significand that fits 64 bits is held, as an integer or as a float. -/
theorem isHeld_integer (negative : Bool) {significand : Nat} (small : significand < significandLimit) :
    IsHeld (integer negative significand) := by
  have limit : significandLimit = 2 ^ 64 := rfl
  unfold integer
  split
  · split
    · obtain ⟨size, _, sized⟩ := Decimal.exists_toFloat significand.toUInt64
      exact sized.neg.isFinite
    · change (-(significand : Int)).natAbs ≤ 2 ^ 64
      omega
  · change (significand : Int).natAbs ≤ 2 ^ 64
    omega

/-- Behind its integral part a numeral still gives a number that is held. -/
theorem afterDigits_gives (negative : Bool) {significand : Nat}
    (small : significand < significandLimit) : Gives (afterDigits negative significand) IsHeld := by
  apply Gives.after
  intro dropped
  apply Gives.after
  intro next
  apply Gives.ite (.map _ (fractionPart_gives _ _ _))
  apply Gives.ite (.map _ (exponentPart_gives _ _ _))
  exact .ite (.pure (isHeld_integer negative small)) (.map _ (scaledFloat_gives _ _ _))

theorem unsigned_gives (negative : Bool) : Gives (unsigned negative) IsHeld := by
  apply Gives.onByte
  intro byte
  apply Gives.after
  intro _
  apply Gives.ite
  · exact .after fun more => .ite (.fail _ _) (afterDigits_gives negative (by decide))
  · refine .ite (?_) (.fail _ _)
    have digit : digitValue byte < significandLimit := by
      have fits := byte.toNat_lt
      have limit : significandLimit = 2 ^ 64 := rfl
      unfold digitValue
      omega
    exact (collected_gives digit).bind fun result small => afterDigits_gives negative small

/-- Every number that is read is finite, and as an integer it fits 64 bits. -/
theorem number_gives : Gives number IsHeld := by
  apply Gives.after
  intro next
  exact .ite (.after fun _ => unsigned_gives true) (unsigned_gives false)

/-- No infinity is read, and nothing that is no number. -/
theorem float_gives : Gives float fun value => value.isFinite = true := by
  apply Gives.onToken
  intro byte
  refine .ite (.settled ?_) (.wrongType _)
  apply number_gives.bind
  intro number held
  cases number with
  | integer value => exact .pure (Decimal.isFinite_ofInt held)
  | float value => exact .pure held

end Numbers

section Structures

variable {Value : Type} {reader : Reader Value} {property : Value → Prop}

/-- Every item that is added has the property, so the whole list does. -/
theorem itemsWithin_gives (itemGives : Gives reader property) (bound : List UInt8) (isFirst : Bool)
    {taken : List Value} (holds : ∀ value ∈ taken, property value) :
    Gives (itemsWithin reader bound isFirst taken) fun values =>
      ∀ value ∈ values, property value := by
  induction bound generalizing isFirst taken with
  | nil => exact .fail _ _
  | cons _ bound inductionHypothesis =>
      apply Gives.after
      intro follows
      refine .ite (itemGives.bind fun value holdsNext => ?_) (.pure ?_)
      · apply inductionHypothesis
        exact List.forall_mem_cons.2 ⟨holdsNext, holds⟩
      · exact fun value member => holds value (List.mem_reverse.1 member)

/-- When all items have a property, every value in the list that is read has it. -/
theorem listOf_gives (itemGives : Gives reader property) :
    Gives (listOf reader) fun values => ∀ value ∈ values, property value := by
  apply Gives.onToken
  intro byte
  refine .ite (.after fun _ => .enclosed ?_) (.wrongType _)
  constructor
  intro input rest values succeeded
  exact (itemsWithin_gives itemGives input true (List.forall_mem_nil _)).holds succeeded

theorem item?_gives (itemGives : Gives reader property) (isFirst : Bool) :
    Gives (item? reader isFirst) fun found => ∀ value ∈ found, property value := by
  apply Gives.after
  intro follows
  apply Gives.ite
  · exact itemGives.bind fun value holds => .pure fun other same => Option.some.inj same ▸ holds
  · exact .pure fun value member => by cases member

theorem Gives.toOption (given : Gives reader property) :
    Gives reader fun value => ∀ other ∈ some value, property other where
  holds read _ same := Option.some.inj same ▸ given.holds read

theorem orNull_gives (given : Gives reader property) :
    Gives (orNull reader) fun found => ∀ value ∈ found, property value := by
  apply Gives.after
  intro next
  apply Gives.ite
  · exact .after fun _ => .after fun _ => .pure fun value member => by cases member
  · exact .map _ given.toOption

/-- A field that may not repeat holds what its reader gives. -/
theorem once_gives (name : String) (earlier : Option Value) (given : Gives reader property) :
    Gives (once name earlier reader) fun found => ∀ value ∈ found, property value := by
  cases earlier with
  | some _ => exact .fail _ _
  | none => exact .after fun _ => .map _ given.toOption

/-- A field that must be there gives what it holds. -/
theorem required_gives (name : String) {found : Option Value}
    (holds : ∀ value ∈ found, property value) : Gives (required name found) property := by
  cases found with
  | some value => exact .pure (holds value rfl)
  | none => exact .fail _ _

theorem fieldAt_gives (name : String) (fields place : Nat) (given : Gives reader property) :
    Gives (fieldAt name fields place reader) property := by
  apply (item?_gives given _).bind
  intro found holds
  cases found with
  | some value => exact .pure (holds value rfl)
  | none => exact .fail _ _

/-- A record gives what both of its forms do, the object and the list of its fields. -/
theorem record_gives (name : String) {ofObject ofList : Reader Value}
    (objectGives : Gives ofObject property) (listGives : Gives ofList property) :
    Gives (record name ofObject ofList) property := by
  apply Gives.onToken
  intro byte
  apply Gives.ite (.after fun _ => .enclosed listGives)
  exact .ite (.after fun _ => .enclosed objectGives) (.wrongType _)

/-- What every member keeps holds at the end of an object. -/
theorem members_gives {State : Type} {member : State → String → Reader State}
    {invariant : State → Prop}
    (keeps : ∀ state key, invariant state → Gives (member state key) invariant) {start : State}
    (holds : invariant start) : Gives (members member start) invariant := by
  suffices within : ∀ (bound : List UInt8) (isFirst : Bool) (state : State), invariant state →
      Gives (membersWithin member bound isFirst state) invariant from
    ⟨fun {input _ _} succeeded => (within input true start holds).holds succeeded⟩
  intro bound
  induction bound with
  | nil => exact fun _ _ _ => .fail _ _
  | cons _ bound inductionHypothesis =>
      intro isFirst state holds
      apply Gives.after
      intro found
      cases found with
      | none => exact .pure holds
      | some key =>
          exact (keeps state key holds).bind fun next holdsNext =>
            inductionHypothesis false next holdsNext

/-- A whole document gives what its reader does. -/
theorem document_gives (given : Gives reader property) {bytes : List UInt8} {value : Value}
    (succeeded : document reader bytes = .ok value) : property value := by
  obtain ⟨rest, read, _⟩ := document_eq_ok.1 succeeded
  exact given.holds read

end Structures

end LightList.Json.Reader
