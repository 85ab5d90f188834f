/-
This file holds why a file cannot be read or written, and when a write is cut off.
-/

namespace LightList

inductive FileFault where
  | notFound
  | notDirectory
  | isDirectory
  | nameTooLong
  | noSpace
  | nulInName
  | other (message : String)
deriving DecidableEq

def FileFault.message : FileFault → String
  | notFound => "No such file or directory (os error 2)"
  | notDirectory => "Not a directory (os error 20)"
  | isDirectory => "Is a directory (os error 21)"
  | nameTooLong => "File name too long (os error 36)"
  | noSpace => "No space left on device (os error 28)"
  | nulInName => "file name contained an unexpected NUL byte"
  | other message => message

/-- So much is taken, and what comes after it is refused with this fault. -/
structure Limit where
  amount : Nat
  fault : FileFault

namespace Limit

variable {Item : Type}

/-- This is the part that is taken; without a limit that is everything. -/
def taken (limit? : Option Limit) (items : List Item) : List Item :=
  match limit? with
  | none => items
  | some limit => items.take limit.amount

/-- The fault shows when something is left over. -/
def fault? (limit? : Option Limit) (items : List Item) : Option FileFault :=
  match limit? with
  | none => none
  | some limit => if limit.amount < items.length then some limit.fault else none

/-- Without a fault everything was taken. -/
theorem taken_of_fault?_eq_none {limit? : Option Limit} {items : List Item}
    (noFault : fault? limit? items = none) : taken limit? items = items := by
  cases limit? with
  | none => rfl
  | some limit =>
      have fits : ¬ limit.amount < items.length := by
        intro exceeds
        rw [fault?, if_pos exceeds] at noFault
        cases noFault
      exact List.take_of_length_le (Nat.not_lt.1 fits)

end Limit

end LightList
