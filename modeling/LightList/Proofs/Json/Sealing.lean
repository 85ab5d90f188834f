/-
This file holds the readers that end on a closing bracket.

Such a reader need not see a byte behind it, not even at the end of the input.
-/

import LightList.Proofs.Json.Locality

namespace LightList.Json.Reader

/-- A sealed reader ends on a closing bracket and does the same whatever bytes follow. -/
structure IsSealed {Value : Type} (reader : Reader Value) : Prop where
  ends {input rest : List UInt8} {value : Value} : reader input = .ok (value, rest) →
    ∃ body bracket, input = body ++ bracket :: rest ∧
      (bracket = closeBracket ∨ bracket = closeBrace)
  extend {input rest : List UInt8} {value : Value} (more : List UInt8) :
    reader input = .ok (value, rest) → reader (input ++ more) = .ok (value, rest ++ more)

section Sealing

variable {Value : Type}

/-- A byte that stops the search does so in longer input too. -/
theorem dropWhile_append_of_cons {test : UInt8 → Bool} {input behind : List UInt8} {byte : UInt8}
    (found : input.dropWhile test = byte :: behind) (more : List UInt8) :
    (input ++ more).dropWhile test = byte :: (behind ++ more) := by
  rw [List.dropWhile_append, found]
  rfl

/-- The body stops before the closing bracket, so it need only be local. -/
theorem enclosed_isSealed {body : Reader Value} {close : Reader Unit} {bracket : UInt8}
    (isCloser : bracket = closeBracket ∨ bracket = closeBrace)
    (closes : ∀ {input rest : List UInt8},
      close input = .ok ((), rest) ↔ input.dropWhile isBlank = bracket :: rest)
    (bodyLocal : IsLocal body) : IsSealed (enclosed body close) where
  ends {input rest value} succeeded := by
    obtain ⟨middle, inside, closed⟩ := enclosed_eq_ok succeeded
    obtain ⟨taken, same⟩ := bodyLocal.suffix inside
    obtain ⟨gap, behind⟩ := List.dropWhile_suffix (l := middle) isBlank
    rw [closes.1 closed] at behind
    refine ⟨taken ++ gap, bracket, ?_, isCloser⟩
    rw [← same, ← behind, List.append_assoc]
  extend {input rest value} more succeeded := by
    obtain ⟨middle, inside, closed⟩ := enclosed_eq_ok succeeded
    have unread : middle ≠ [] := by
      rintro rfl
      cases closes.1 closed
    exact enclosed_of_ok (bodyLocal.extend more inside unread)
      (closes.2 (dropWhile_append_of_cons (closes.1 closed) more))

/-- A record ends at its own bracket, so what follows is never looked at. -/
theorem record_isSealed (name : String) {ofObject ofList : Reader Value}
    (objectLocal : IsLocal ofObject) (listLocal : IsLocal ofList) :
    IsSealed (record name ofObject ofList) := by
  have listSealed := enclosed_isSealed (.inl rfl) closeList_eq_ok_iff listLocal
  have objectSealed := enclosed_isSealed (.inr rfl) closeObject_eq_ok_iff objectLocal
  have before {input inner : List UInt8} {opening : UInt8}
      (opened : input.dropWhile isBlank = opening :: inner) :
      ∃ gap, input = gap ++ opening :: inner := by
    obtain ⟨gap, same⟩ := List.dropWhile_suffix (l := input) isBlank
    exact ⟨gap, by rw [← same, opened]⟩
  constructor
  · intro input rest value succeeded
    obtain ⟨inner, ⟨opened, read⟩ | ⟨opened, read⟩⟩ := record_eq_ok succeeded
    · obtain ⟨body, bracket, same, isCloser⟩ := listSealed.ends read
      obtain ⟨gap, whole⟩ := before opened
      exact ⟨gap ++ openBracket :: body, bracket, by simp [whole, same], isCloser⟩
    · obtain ⟨body, bracket, same, isCloser⟩ := objectSealed.ends read
      obtain ⟨gap, whole⟩ := before opened
      exact ⟨gap ++ openBrace :: body, bracket, by simp [whole, same], isCloser⟩
  · intro input rest value more succeeded
    obtain ⟨inner, ⟨opened, read⟩ | ⟨opened, read⟩⟩ := record_eq_ok succeeded
    · rw [record_of_list (dropWhile_append_of_cons opened more)]
      exact listSealed.extend more read
    · rw [record_of_object (dropWhile_append_of_cons opened more)]
      exact objectSealed.extend more read

end Sealing

/-- Blanks behind an accepted document change nothing, and anything else is refused. -/
theorem document_append {Value : Type} {reader : Reader Value} (isSealed : IsSealed reader)
    {bytes : List UInt8} {value : Value} (accepted : document reader bytes = .ok value)
    (more : List UInt8) :
    (more.all isBlank = true → document reader (bytes ++ more) = .ok value) ∧
      (more.all isBlank = false → ∃ error, document reader (bytes ++ more) = .error error) := by
  obtain ⟨rest, read, blank⟩ := document_eq_ok.1 accepted
  have extended := isSealed.extend more read
  constructor
  · intro padding
    refine document_eq_ok.2 ⟨rest ++ more, extended, ?_⟩
    rw [List.all_append, blank, padding]
    rfl
  · intro junk
    cases outcome : document reader (bytes ++ more) with
    | error error => exact ⟨error, rfl⟩
    | ok other =>
        obtain ⟨behind, again, allBlank⟩ := document_eq_ok.1 outcome
        rw [extended] at again
        cases again
        rw [List.all_append, junk, Bool.and_false] at allBlank
        cases allBlank

/-- An accepted document ends on a closing bracket, but for blanks. -/
theorem document_ends {Value : Type} {reader : Reader Value} (isSealed : IsSealed reader)
    {bytes : List UInt8} {value : Value} (accepted : document reader bytes = .ok value) :
    ∃ body bracket gap, bytes = body ++ bracket :: gap ∧
      (bracket = closeBracket ∨ bracket = closeBrace) ∧ gap.all isBlank = true := by
  obtain ⟨rest, read, blank⟩ := document_eq_ok.1 accepted
  obtain ⟨body, bracket, same, isCloser⟩ := isSealed.ends read
  exact ⟨body, bracket, rest, same, isCloser, blank⟩

end LightList.Json.Reader
