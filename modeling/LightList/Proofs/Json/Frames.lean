/-
This file says what becomes of a structure when one of its fields is exchanged.

A frame is a structure that lacks a field, and the field may be put into it.
-/

import LightList.Proofs.Json.Structures

namespace LightList.Json

open Written

/-- This is what stands in front of a missing field and behind it. -/
inductive Frame where
  | object (front back : List (String × Written))
  | list (front back : List Written)

namespace Frame

/-- The field stands under its name or at its place. -/
def plug (name : String) (tree : Written) : Frame → Written
  | .object front back => .object (front ++ (name, tree) :: back)
  | .list front back => .array (front ++ tree :: back)

/-- In a list so many fields stand before the missing one. -/
def IsAt (place : Nat) : Frame → Prop
  | .object _ _ => True
  | .list front _ => front.length = place

end Frame

namespace Written

variable {Value : Type} {name : String} {value? : Written → Option Value}
  {front back : List (String × Written)} {tree : Written}

/-- A field that could be read does not occur twice, so what is put there instead is read. -/
theorem field?_plug {earlier : Option Value}
    (found : field? name value? (front ++ (name, tree) :: back) = some earlier) :
    ∃ value, value? tree = some value ∧ earlier = some value ∧
      ∀ other, field? name value? (front ++ (name, other) :: back) = (value? other).map some := by
  have filtered (other : Written) :
      (front ++ (name, other) :: back).filter (fun entry => entry.1 = name) =
        front.filter (fun entry => entry.1 = name) ++
          (name, other) :: back.filter (fun entry => entry.1 = name) := by
    rw [List.filter_append]
    exact congrArg _ (List.filter_cons_of_pos (decide_eq_true rfl))
  simp only [field?, filtered] at found ⊢
  revert found
  cases front.filter fun entry => entry.1 = name with
  | nil =>
      cases back.filter fun entry => entry.1 = name with
      | nil =>
          intro found
          obtain ⟨value, read, rfl⟩ := Option.map_eq_some_iff.1 found
          exact ⟨value, read, rfl, fun _ => rfl⟩
      | cons entry more =>
          intro impossible
          cases impossible
  | cons entry more =>
      intro impossible
      cases more <;> cases impossible

/-- A member of another name does not change what a field is decoded as. -/
theorem field?_plug_of_ne {other : String} (different : name ≠ other)
    (value? : Written → Option Value) (front back : List (String × Written)) (tree : Written) :
    field? other value? (front ++ (name, tree) :: back) = field? other value? (front ++ back) := by
  rw [field?, field?, List.filter_append, List.filter_append, List.filter_cons_of_neg]
  simpa using different

section Lists

variable {Result : Type} (item : Written) (more : List Written)

/-- The first item is taken, and what comes next goes on with the others. -/
theorem takeAll?_takeItem_bind (value? : Written → Option Value) (next : Value → Taking Result) :
    takeAll? (takeItem value? >>= next) (item :: more) =
      (value? item).bind fun value => takeAll? (next value) more := by
  have opened : (takeItem value? >>= next) (item :: more) =
      ((value? item).map fun value => (value, more)).bind fun taken => next taken.1 taken.2 := rfl
  rw [takeAll?, opened]
  cases value? item with
  | none => rfl
  | some value => rfl

/-- Changing the result afterwards leaves the items that are taken as they are. -/
theorem takeAll?_bind_pure (taking : Taking Value) (change : Value → Result)
    (items : List Written) :
    takeAll? (taking >>= fun value => pure (change value)) items =
      (takeAll? taking items).map change := by
  have opened : (taking >>= fun value => pure (change value)) items =
      (taking items).bind fun taken => some (change taken.1, taken.2) := rfl
  rw [takeAll?, takeAll?, opened]
  cases taking items with
  | none => rfl
  | some taken =>
      obtain ⟨value, rest⟩ := taken
      cases rest with
      | nil => rfl
      | cons next others => rfl

/-- Nothing may follow the last item of a list. -/
theorem takeAll?_takeItemOr (value? : Written → Option Value) (absent : Value) :
    takeAll? (takeItemOr value? absent) (item :: more) =
      if more = [] then value? item else none := by
  rw [takeAll?, takeItemOr]
  cases value? item with
  | none =>
      rw [ite_self]
      rfl
  | some value =>
      cases more with
      | nil => rfl
      | cons next others => rfl

/-- A structure whose only field is there is read as that field is. -/
theorem record?_plug_only {frame : Frame} (isAt : frame.IsAt 0)
    {ofMembers? : List (String × Written) → Option Value} {ofItems? : List Written → Option Value}
    {complete : Option Value → Option Value}
    (completes : ∀ value, complete (some value) = some value)
    (named : ∀ members, ofMembers? members = (field? name value? members).bind complete)
    (alone : ∀ item more, ofItems? (item :: more) = if more = [] then value? item else none)
    {found : Value} (held : record? ofMembers? ofItems? (frame.plug name tree) = some found) :
    value? tree = some found ∧
      ∀ other, record? ofMembers? ofItems? (frame.plug name other) = value? other := by
  cases frame with
  | object front back =>
      change ofMembers? _ = _ at held
      rw [named] at held
      obtain ⟨_, isField, completed⟩ := Option.bind_eq_some_iff.1 held
      obtain ⟨value, read, rfl, exchanged⟩ := field?_plug isField
      obtain rfl : value = found := Option.some.inj ((completes value).symm.trans completed)
      refine ⟨read, ?_⟩
      intro other
      change ofMembers? _ = _
      rw [named, exchanged other]
      cases value? other with
      | none => rfl
      | some value => exact completes value
  | list front back =>
      obtain rfl := List.length_eq_zero_iff.1 isAt
      change ofItems? (tree :: back) = _ at held
      rw [alone] at held
      split at held
      · next ended =>
          refine ⟨held, ?_⟩
          intro other
          change ofItems? (other :: back) = _
          rw [alone, if_pos ended]
      · cases held

/-- Each item of a list is read on its own, so another one may stand in its place. -/
theorem mapM_exchange {Item : Type} {value? : Item → Option Value} {front back : List Item}
    {item : Item} {values : List Value}
    (found : (front ++ item :: back).mapM value? = some values) :
    ∃ before value after, values = before ++ value :: after ∧ before.length = front.length ∧
      value? item = some value ∧
      ∀ other, (front ++ other :: back).mapM value? =
        (value? other).map fun value => before ++ value :: after := by
  induction front generalizing values with
  | nil =>
      rw [List.nil_append, List.mapM_cons] at found
      obtain ⟨value, read, found⟩ := Option.bind_eq_some_iff.1 found
      obtain ⟨after, further, same⟩ := Option.bind_eq_some_iff.1 found
      cases same
      refine ⟨[], value, after, rfl, rfl, read, ?_⟩
      intro other
      rw [List.nil_append, List.mapM_cons, further]
      cases value? other with
      | none => rfl
      | some value => rfl
  | cons first rest inductionHypothesis =>
      rw [List.cons_append, List.mapM_cons] at found
      obtain ⟨firstValue, firstRead, found⟩ := Option.bind_eq_some_iff.1 found
      obtain ⟨others, further, same⟩ := Option.bind_eq_some_iff.1 found
      cases same
      obtain ⟨before, value, after, rfl, sameLength, read, exchanged⟩ := inductionHypothesis further
      refine ⟨firstValue :: before, value, after, rfl, congrArg Nat.succ sameLength, read, ?_⟩
      intro other
      rw [List.cons_append, List.mapM_cons, firstRead, exchanged other]
      cases value? other with
      | none => rfl
      | some value => rfl

end Lists

end Written

end LightList.Json
