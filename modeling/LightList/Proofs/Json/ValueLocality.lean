/-
This file shows that the readers of numbers, strings, trees and typed values are local, and so are
those that skip a value.
-/

import LightList.Proofs.Json.Locality

namespace LightList.Json.Reader

theorem atDigit_isLocal : IsLocal atDigit := peek_isLocal.bind fun _ => .pure _

/-- Collecting stops at the first byte that does not join, which is still unread. -/
theorem collect_append (limit value count : Nat) (input more : List UInt8)
    (unread : (collect limit value count input).rest ≠ []) :
    collect limit value count (input ++ more) =
      { collect limit value count input with
        rest := (collect limit value count input).rest ++ more } := by
  induction input generalizing value count with
  | nil => exact (unread rfl).elim
  | cons byte rest inductionHypothesis =>
      rw [List.cons_append]
      unfold collect at unread ⊢
      split
      · next joins =>
          rw [if_pos joins] at unread
          exact inductionHypothesis _ _ unread
      · rfl

/-- Collecting digits takes a front part of the input. -/
theorem collect_rest_suffix (limit value count : Nat) (input : List UInt8) :
    (collect limit value count input).rest <:+ input := by
  induction input generalizing value count with
  | nil => exact List.suffix_rfl
  | cons byte rest inductionHypothesis =>
      unfold collect
      split
      · exact (inductionHypothesis _ _).trans (List.suffix_cons byte rest)
      · exact List.suffix_rfl

/-- Digits are collected up to the first byte that is none. -/
theorem collected_isLocal (limit value : Nat) : IsLocal (collected limit value) where
  suffix succeeded := by
    cases succeeded
    exact collect_rest_suffix limit value 0 _
  extend more succeeded unread := by
    cases succeeded
    simp only [collected, collect_append limit value 0 _ more unread]

theorem scaledFloat_isLocal (negative : Bool) (significand : Nat) (exponent : Int) :
    IsLocal (scaledFloat negative significand exponent) := by
  unfold scaledFloat
  split
  · exact .pure _
  · exact .fail _ _

theorem exponentSign_isLocal : IsLocal exponentSign := by
  apply peek_isLocal.bind
  intro found
  cases found with
  | none => exact .pure _
  | some byte =>
      refine .ite (skipByte_isLocal.bind fun _ => .pure _) (.ite ?_ (.pure _))
      exact skipByte_isLocal.bind fun _ => .pure _

theorem exponentOverflow_isLocal (negative : Bool) (significand : Nat) (below : Bool) :
    IsLocal (exponentOverflow negative significand below) := by
  apply IsLocal.ite
  · exact skipByte_isLocal.bind fun _ => .fail _ _
  · exact skipDigits_isLocal.bind fun _ => .pure _

/-- An exponent is taken up to the first byte that is no digit. -/
theorem exponentPart_isLocal (negative : Bool) (significand : Nat) (start : Int) :
    IsLocal (exponentPart negative significand start) := by
  apply skipByte_isLocal.bind
  intro _
  apply exponentSign_isLocal.bind
  intro below
  apply IsLocal.onByte
  intro byte
  apply skipByte_isLocal.bind
  intro _
  refine .ite ?_ (.fail _ _)
  apply (collected_isLocal _ _).bind
  intro collected
  apply atDigit_isLocal.bind
  intro more
  exact .ite (exponentOverflow_isLocal _ _ _) (scaledFloat_isLocal _ _ _)

theorem exponentOrEnd_isLocal (negative : Bool) (significand : Nat) (exponent : Int) :
    IsLocal (exponentOrEnd negative significand exponent) :=
  peek_isLocal.bind fun _ => .ite (exponentPart_isLocal _ _ _) (scaledFloat_isLocal _ _ _)

theorem fractionPart_isLocal (negative : Bool) (significand : Nat) (exponent : Int) :
    IsLocal (fractionPart negative significand exponent) := by
  apply skipByte_isLocal.bind
  intro _
  apply IsLocal.onByte
  intro byte
  refine .ite ?_ (.fail _ _)
  apply (collected_isLocal _ _).bind
  intro collected
  apply skipDigits_isLocal.bind
  intro _
  exact exponentOrEnd_isLocal _ _ _

theorem afterDigits_isLocal (negative : Bool) (significand : Nat) :
    IsLocal (afterDigits negative significand) := by
  apply countDigits_isLocal.bind
  intro dropped
  apply peek_isLocal.bind
  intro next
  refine .ite (.map _ (fractionPart_isLocal _ _ _)) (.ite (.map _ (exponentPart_isLocal _ _ _)) ?_)
  exact .ite (.pure _) (.map _ (scaledFloat_isLocal _ _ _))

/-- The branch that a number takes depends on its first bytes alone. -/
theorem unsigned_isLocal (negative : Bool) : IsLocal (unsigned negative) := by
  apply IsLocal.onByte
  intro byte
  apply skipByte_isLocal.bind
  intro _
  refine .ite ?_ (.ite ?_ (.fail _ _))
  · exact atDigit_isLocal.bind fun more => .ite (.fail _ _) (afterDigits_isLocal _ _)
  · exact (collected_isLocal _ _).bind fun collected => afterDigits_isLocal _ _

/-- A number is local: what follows is looked at only to find its end. -/
theorem number_isLocal : IsLocal number := by
  apply peek_isLocal.bind
  intro next
  apply IsLocal.ite
  · exact skipByte_isLocal.bind fun _ => unsigned_isLocal _
  · exact unsigned_isLocal _

theorem skipExponent_isLocal : IsLocal skipExponent := by
  apply skipByte_isLocal.bind
  intro _
  apply exponentSign_isLocal.bind
  intro _
  apply IsLocal.onByte
  intro byte
  exact skipByte_isLocal.bind fun _ => .ite skipDigits_isLocal (.fail _ _)

theorem skipExponentOrEnd_isLocal : IsLocal skipExponentOrEnd :=
  peek_isLocal.bind fun _ => .ite skipExponent_isLocal (.pure _)

theorem skipFraction_isLocal : IsLocal skipFraction := by
  apply skipByte_isLocal.bind
  intro _
  apply atDigit_isLocal.bind
  intro _
  apply IsLocal.ite
  · exact skipDigits_isLocal.bind fun _ => skipExponentOrEnd_isLocal
  · exact .fail _ _

theorem skipAfterDigits_isLocal : IsLocal skipAfterDigits :=
  peek_isLocal.bind fun _ => .ite skipFraction_isLocal skipExponentOrEnd_isLocal

theorem skipUnsigned_isLocal : IsLocal skipUnsigned := by
  apply IsLocal.onByte
  intro byte
  apply skipByte_isLocal.bind
  intro _
  refine .ite ?_ (.ite ?_ (.fail _ _))
  · exact atDigit_isLocal.bind fun more => .ite (.fail _ _) skipAfterDigits_isLocal
  · exact skipDigits_isLocal.bind fun _ => skipAfterDigits_isLocal

/-- A number that is passed is taken as far as one that is read. -/
theorem skipNumber_isLocal : IsLocal skipNumber := by
  apply peek_isLocal.bind
  intro next
  apply IsLocal.ite
  · exact skipByte_isLocal.bind fun _ => skipUnsigned_isLocal
  · exact skipUnsigned_isLocal

theorem hexCode_isLocal : IsLocal hexCode := by
  constructor
  · intro input rest value succeeded
    unfold hexCode at succeeded
    split at succeeded
    · split at succeeded
      · cases succeeded
        exact ⟨[_, _, _, _], rfl⟩
      · cases succeeded
    · cases succeeded
  · intro input rest value more succeeded unread
    unfold hexCode at succeeded
    split at succeeded
    · split at succeeded
      · next digits =>
          cases succeeded
          simp only [hexCode, List.cons_append, *]
      · cases succeeded
    · cases succeeded

theorem pairByte_isLocal (expected : UInt8) : IsLocal (pairByte expected) :=
  .onByte fun _ => skipByte_isLocal.bind fun _ => .ite (.pure _) (.fail _ _)

/-- An escape that needs a second half takes it or fails. -/
theorem unicodeEscape_isLocal : IsLocal unicodeEscape := by
  apply hexCode_isLocal.bind
  intro first
  refine .ite (.fail _ _) (.ite ?_ (.pure _))
  apply (pairByte_isLocal _).bind
  intro _
  apply (pairByte_isLocal _).bind
  intro _
  exact hexCode_isLocal.bind fun second => .ite (.pure _) (.fail _ _)

/-- An escape is decided by the byte behind its backslash. -/
theorem escape_isLocal : IsLocal escape := by
  apply IsLocal.onByte
  intro letter
  apply skipByte_isLocal.bind
  intro _
  refine .ite unicodeEscape_isLocal ?_
  split
  · exact .pure _
  · exact .fail _ _

/-- A run ends before a quote or a backslash, which is still unread. -/
theorem run_isLocal : IsLocal run := by
  constructor
  · intro input rest value succeeded
    unfold run at succeeded
    split at succeeded
    · cases succeeded
    · next byte behind stopped =>
        split at succeeded
        · cases succeeded
        · cases succeeded
          rw [← stopped]
          exact List.dropWhile_suffix _
  · intro input rest value more succeeded unread
    unfold run at succeeded
    split at succeeded
    · cases succeeded
    · next byte behind stopped =>
        split at succeeded
        · cases succeeded
        · next plain =>
            cases succeeded
            have dropped : (input ++ more).dropWhile isTextByte = byte :: (behind ++ more) := by
              rw [List.dropWhile_append, stopped]
              rfl
            have taken : (input ++ more).takeWhile isTextByte = input.takeWhile isTextByte := by
              have parts := List.takeWhile_append_dropWhile (p := isTextByte) (l := input ++ more)
              have before := List.takeWhile_append_dropWhile (p := isTextByte) (l := input)
              rw [dropped] at parts
              rw [stopped] at before
              have same : (input ++ more).takeWhile isTextByte ++ byte :: (behind ++ more) =
                  input.takeWhile isTextByte ++ byte :: (behind ++ more) := by
                rw [parts, ← List.cons_append, ← List.append_assoc, before]
              exact List.append_cancel_right same
            simp only [run, dropped, taken, if_neg plain, List.cons_append]

/-- A text is local: its closing quote ends it. -/
theorem textWithin_isLocal (bound taken : List UInt8) : IsLocal (textWithin bound taken) := by
  induction bound generalizing taken with
  | nil => exact .fail _ _
  | cons _ bound inductionHypothesis =>
      apply run_isLocal.bind
      intro bytes
      apply peek_isLocal.bind
      intro next
      apply skipByte_isLocal.bind
      intro _
      apply IsLocal.ite
      · exact .pure _
      · exact escape_isLocal.bind fun escaped => inductionHypothesis _

/-- A bound that is longer than needed changes nothing for a text. -/
theorem textWithin_grows {bound taken input : List UInt8} {outcome : List UInt8 × List UInt8}
    (more : List UInt8) (succeeded : textWithin bound taken input = .ok outcome) :
    textWithin (bound ++ more) taken input = .ok outcome := by
  induction bound generalizing taken input with
  | nil => cases succeeded
  | cons _ bound inductionHypothesis =>
      obtain ⟨bytes, rest, ran, continued⟩ := bind_eq_ok succeeded
      rw [List.cons_append, textWithin, bind_of_ok ran]
      simp only [bind_apply, peek_apply, skipByte_apply] at continued ⊢
      split at continued
      · next isQuote =>
          rw [if_pos isQuote]
          exact continued
      · next isEscape =>
          obtain ⟨escaped, behind, resolved, remaining⟩ := bind_eq_ok continued
          rw [if_neg isEscape, bind_of_ok resolved]
          exact inductionHypothesis remaining

/-- The collected bytes decide alone whether they are a text. -/
theorem text_isLocal : IsLocal text := by
  have collecting : IsLocal fun input => textWithin input [] input :=
    .ofBounded (fun bound => textWithin bound []) (fun bound => textWithin_isLocal bound [])
      textWithin_grows
  constructor
  · intro input rest value succeeded
    obtain ⟨bytes, collected, decoded⟩ := text_eq_ok.1 succeeded
    exact collecting.suffix collected
  · intro input rest value more succeeded unread
    obtain ⟨bytes, collected, decoded⟩ := text_eq_ok.1 succeeded
    exact text_eq_ok.2 ⟨bytes, collecting.extend more collected unread, decoded⟩

theorem skipEscape_isLocal : IsLocal skipEscape := by
  apply IsLocal.onByte
  intro letter
  apply skipByte_isLocal.bind
  intro _
  apply IsLocal.ite
  · exact hexCode_isLocal.bind fun _ => .pure _
  · exact .ite (.pure _) (.fail _ _)

/-- A text that is passed ends at its closing quote too. -/
theorem skipTextWithin_isLocal (bound : List UInt8) : IsLocal (skipTextWithin bound) := by
  induction bound with
  | nil => exact .fail _ _
  | cons _ bound inductionHypothesis =>
      apply IsLocal.onByte
      intro byte
      refine .ite (.fail _ _) (skipByte_isLocal.bind fun _ => ?_)
      refine .ite (.pure _) (.ite ?_ inductionHypothesis)
      exact skipEscape_isLocal.bind fun _ => inductionHypothesis

/-- A bound that is longer than needed changes nothing for a text that is passed. -/
theorem skipTextWithin_grows {bound input : List UInt8} {outcome : Unit × List UInt8}
    (more : List UInt8) (succeeded : skipTextWithin bound input = .ok outcome) :
    skipTextWithin (bound ++ more) input = .ok outcome := by
  induction bound generalizing input with
  | nil => cases succeeded
  | cons _ bound inductionHypothesis =>
      obtain ⟨found, rest, looked, continued⟩ := bind_eq_ok succeeded
      rw [List.cons_append, skipTextWithin, bind_of_ok looked]
      cases found with
      | none => cases continued
      | some byte =>
          dsimp only at continued ⊢
          split at continued
          · cases continued
          · next plain =>
              rw [if_neg plain]
              simp only [bind_apply, skipByte_apply] at continued ⊢
              split at continued
              · next isQuote =>
                  rw [if_pos isQuote]
                  exact continued
              · next notQuote =>
                  rw [if_neg notQuote]
                  split at continued
                  · next isEscape =>
                      rw [if_pos isEscape]
                      obtain ⟨_, behind, resolved, remaining⟩ := bind_eq_ok continued
                      rw [bind_of_ok resolved]
                      exact inductionHypothesis remaining
                  · next notEscape =>
                      rw [if_neg notEscape]
                      exact inductionHypothesis continued

theorem skipText_isLocal : IsLocal skipText :=
  .ofBounded skipTextWithin skipTextWithin_isLocal skipTextWithin_grows

/-- The next key is found behind a comma, or the closing brace is. -/
theorem key?_isLocal (isFirst : Bool) : IsLocal (key? isFirst) := by
  apply (atMember_isLocal isFirst).bind
  intro follows
  apply IsLocal.ite
  · exact skipByte_isLocal.bind fun _ => text_isLocal.bind fun key => .pure _
  · exact .pure _

section Members

variable {State : Type} {member : State → String → Reader State}

/-- Members are local when the reader of each of them is. -/
theorem membersWithin_isLocal (memberLocal : ∀ state key, IsLocal (member state key))
    (bound : List UInt8) (isFirst : Bool) (state : State) :
    IsLocal (membersWithin member bound isFirst state) := by
  induction bound generalizing isFirst state with
  | nil => exact .fail _ _
  | cons _ bound inductionHypothesis =>
      apply (key?_isLocal isFirst).bind
      intro found
      cases found with
      | none => exact .pure _
      | some key => exact (memberLocal state key).bind fun next => inductionHypothesis false next

/-- A bound that is longer than needed changes nothing for members. -/
theorem membersWithin_grows {bound input : List UInt8} {isFirst : Bool} {state : State}
    {outcome : State × List UInt8} (more : List UInt8)
    (succeeded : membersWithin member bound isFirst state input = .ok outcome) :
    membersWithin member (bound ++ more) isFirst state input = .ok outcome := by
  induction bound generalizing isFirst state input with
  | nil => cases succeeded
  | cons _ bound inductionHypothesis =>
      obtain ⟨found, rest, asked, continued⟩ := bind_eq_ok succeeded
      rw [List.cons_append, membersWithin, bind_of_ok asked]
      cases found with
      | none => exact continued
      | some key =>
          obtain ⟨next, behind, read, remaining⟩ := bind_eq_ok continued
          change (member state key >>= fun next => membersWithin member (bound ++ more) false next)
            rest = .ok outcome
          rw [bind_of_ok read]
          exact inductionHypothesis remaining

/-- The bound grows with the input, so members are read alike in longer input. -/
theorem members_isLocal (memberLocal : ∀ state key, IsLocal (member state key)) (start : State) :
    IsLocal (members member start) :=
  .ofBounded (fun bound => membersWithin member bound true start)
    (fun bound => membersWithin_isLocal memberLocal bound true start) membersWithin_grows

end Members

theorem scalarOrBracket_isLocal : IsLocal scalarOrBracket := by
  refine .onToken fun byte => .ite ?_ (.ite ?_ (.ite ?_ (.ite ?_ (.ite ?_ (.ite ?_ (.ite ?_
    (.fail _ _)))))))
  · exact skipByte_isLocal.bind fun _ => (letters_isLocal _).bind fun _ => .pure _
  · exact skipByte_isLocal.bind fun _ => (letters_isLocal _).bind fun _ => .pure _
  · exact skipByte_isLocal.bind fun _ => (letters_isLocal _).bind fun _ => .pure _
  · exact skipNumber_isLocal.bind fun _ => .pure _
  · exact skipByte_isLocal.bind fun _ => skipText_isLocal.bind fun _ => .pure _
  · exact skipByte_isLocal.bind fun _ => .pure _
  · exact skipByte_isLocal.bind fun _ => .pure _

theorem closedAtOnce_isLocal (bracket : Bracket) : IsLocal (closedAtOnce bracket) :=
  .onToken fun _ => .ite (skipByte_isLocal.bind fun _ => .pure _) (.pure _)

theorem commaFollows_isLocal (bracket : Bracket) : IsLocal (commaFollows bracket) := by
  apply IsLocal.onToken
  intro byte
  refine .ite (skipByte_isLocal.bind fun _ => .pure _) (.ite ?_ (.fail _ _))
  exact skipByte_isLocal.bind fun _ => .pure _

theorem skipKey_isLocal (bracket : Bracket) : IsLocal (skipKey bracket) := by
  cases bracket with
  | list => exact .pure _
  | object =>
      apply IsLocal.onToken
      intro byte
      apply IsLocal.ite
      · exact skipByte_isLocal.bind fun _ => skipText_isLocal.bind fun _ => takeColon_isLocal
      · exact .fail _ _

/-- The cases are those of the recursion: a value is due, or one has ended within a bracket. -/
theorem skipWithin_isLocal (bound : List UInt8) (due : Bool) (stack : List Bracket) :
    IsLocal (skipWithin bound due stack) := by
  induction bound generalizing due stack with
  | nil =>
      match due, stack with
      | false, [] => exact .pure _
      | false, bracket :: _ => exact .fail _ _
      | true, _ => exact .fail _ _
  | cons _ bound inductionHypothesis =>
      match due, stack with
      | false, [] => exact .pure _
      | false, bracket :: stack =>
          apply (commaFollows_isLocal bracket).bind
          intro follows
          apply IsLocal.ite
          · exact (skipKey_isLocal bracket).bind fun _ => inductionHypothesis _ _
          · exact inductionHypothesis _ _
      | true, stack =>
          apply scalarOrBracket_isLocal.bind
          intro opened
          cases opened with
          | none => exact inductionHypothesis _ _
          | some bracket =>
              apply (closedAtOnce_isLocal bracket).bind
              intro closed
              apply IsLocal.ite
              · exact inductionHypothesis _ _
              · exact (skipKey_isLocal bracket).bind fun _ => inductionHypothesis _ _

/-- A bound that is longer than needed changes nothing for a value that is passed. -/
theorem skipWithin_grows {bound input : List UInt8} {due : Bool} {stack : List Bracket}
    {outcome : Unit × List UInt8} (more : List UInt8)
    (succeeded : skipWithin bound due stack input = .ok outcome) :
    skipWithin (bound ++ more) due stack input = .ok outcome := by
  induction bound generalizing due stack input with
  | nil =>
      match due, stack with
      | false, [] =>
          rw [skipWithin.eq_1] at succeeded ⊢
          exact succeeded
      | false, bracket :: _ => cases succeeded
      | true, _ => cases succeeded
  | cons _ bound inductionHypothesis =>
      match due, stack with
      | false, [] =>
          rw [skipWithin.eq_1] at succeeded ⊢
          exact succeeded
      | false, bracket :: stack =>
          obtain ⟨follows, rest, asked, continued⟩ := bind_eq_ok succeeded
          rw [List.cons_append, skipWithin, bind_of_ok asked]
          split at continued
          · next isComma =>
              obtain ⟨_, behind, key, remaining⟩ := bind_eq_ok continued
              rw [if_pos isComma, bind_of_ok key]
              exact inductionHypothesis remaining
          · next isClose =>
              rw [if_neg isClose]
              exact inductionHypothesis continued
      | true, stack =>
          obtain ⟨opened, rest, began, continued⟩ := bind_eq_ok succeeded
          rw [List.cons_append, skipWithin, bind_of_ok began]
          cases opened with
          | none => exact inductionHypothesis continued
          | some bracket =>
              obtain ⟨closed, behind, asked, remaining⟩ := bind_eq_ok continued
              dsimp only
              rw [bind_of_ok asked]
              split at remaining
              · next atOnce =>
                  rw [if_pos atOnce]
                  exact inductionHypothesis remaining
              · next notAtOnce =>
                  obtain ⟨_, value, key, final⟩ := bind_eq_ok remaining
                  rw [if_neg notAtOnce, bind_of_ok key]
                  exact inductionHypothesis final

/-- A value that is passed ends where its last bracket closes. -/
theorem skipValue_isLocal : IsLocal skipValue :=
  .ofBounded (fun bound => skipWithin bound true []) (fun bound => skipWithin_isLocal bound true [])
    skipWithin_grows

theorem found_isLocal : IsLocal found := by
  refine .onByte fun byte => .ite ?_ (.ite ?_ (.ite ?_ (.ite ?_ (.ite ?_ (.ite (.pure _)
    (.ite (.pure _) (.fail _ _)))))))
  · exact skipByte_isLocal.bind fun _ => (letters_isLocal _).bind fun _ => .pure _
  · exact skipByte_isLocal.bind fun _ => (letters_isLocal _).bind fun _ => .pure _
  · exact skipByte_isLocal.bind fun _ => (letters_isLocal _).bind fun _ => .pure _
  · exact number_isLocal.bind fun value => .pure _
  · exact skipByte_isLocal.bind fun _ => text_isLocal.bind fun value => .pure _

theorem wrongType_isLocal {Value : Type} (wanted : String) :
    IsLocal (wrongType wanted : Reader Value) :=
  .settled (found_isLocal.bind fun _ => .fail _ _)

/-- A number that must be of some kind is local when its check is. -/
theorem numberAs_isLocal {Value : Type} (wanted : String) {accept : Number → Reader Value}
    (acceptLocal : ∀ value, IsLocal (accept value)) : IsLocal (numberAs wanted accept) :=
  .onToken fun _ => .ite (.settled (number_isLocal.bind acceptLocal)) (wrongType_isLocal wanted)

theorem int64_isLocal : IsLocal int64 := by
  apply numberAs_isLocal _
  intro value
  cases value with
  | integer value => exact .ite (.pure _) (.fail _ _)
  | float value => exact .fail _ _

theorem float_isLocal : IsLocal float := numberAs_isLocal _ fun _ => .pure _

/-- A text that must be of some kind is local when its check is. -/
theorem textAs_isLocal {Value : Type} (wanted : String) {accept : String → Reader Value}
    (acceptLocal : ∀ value, IsLocal (accept value)) : IsLocal (textAs wanted accept) := by
  apply IsLocal.onToken
  intro byte
  refine .ite (.settled ?_) (wrongType_isLocal wanted)
  exact skipByte_isLocal.bind fun _ => text_isLocal.bind acceptLocal

theorem string_isLocal : IsLocal string := textAs_isLocal _ fun value => .pure value

theorem unit_isLocal : IsLocal unit := by
  apply IsLocal.onToken
  intro byte
  apply IsLocal.ite
  · exact skipByte_isLocal.bind fun _ => letters_isLocal _
  · exact wrongType_isLocal _

section Composite

variable {Value : Type} {reader : Reader Value}

/-- The choice of null is made at the first byte. -/
theorem orNull_isLocal (readerLocal : IsLocal reader) : IsLocal (orNull reader) := by
  apply peekToken_isLocal.bind
  intro found
  apply IsLocal.ite
  · exact skipByte_isLocal.bind fun _ => (letters_isLocal _).bind fun _ => .pure _
  · exact .map _ readerLocal

theorem listOf_isLocal (readerLocal : IsLocal reader) : IsLocal (listOf reader) := by
  apply IsLocal.onToken
  intro byte
  apply IsLocal.ite
  · exact skipByte_isLocal.bind fun _ => enclosed_isLocal (items_isLocal readerLocal) closeList_isLocal
  · exact wrongType_isLocal _

theorem entries_isLocal (readerLocal : IsLocal reader) : IsLocal (entries reader) := by
  have memberLocal (taken : List (String × Value)) (key : String) : IsLocal (do
      takeColon
      let entry ← reader
      return (key, entry) :: taken) :=
    takeColon_isLocal.bind fun _ => readerLocal.bind fun entry => .pure _
  exact (members_isLocal memberLocal []).bind fun reversed => .pure _

/-- A record is local when both of its forms are. -/
theorem record_isLocal (name : String) {ofObject ofList : Reader Value}
    (objectLocal : IsLocal ofObject) (listLocal : IsLocal ofList) :
    IsLocal (record name ofObject ofList) := by
  apply IsLocal.onToken
  intro byte
  refine .ite ?_ (.ite ?_ (wrongType_isLocal _))
  · exact skipByte_isLocal.bind fun _ => enclosed_isLocal listLocal closeList_isLocal
  · exact skipByte_isLocal.bind fun _ => enclosed_isLocal objectLocal closeObject_isLocal

theorem once_isLocal (name : String) (earlier : Option Value) (readerLocal : IsLocal reader) :
    IsLocal (once name earlier reader) := by
  cases earlier with
  | some _ => exact .fail _ _
  | none => exact takeColon_isLocal.bind fun _ => .map _ readerLocal

theorem unknownField_isLocal : IsLocal unknownField :=
  takeColon_isLocal.bind fun _ => skipValue_isLocal

theorem required_isLocal (name : String) (value : Option Value) :
    IsLocal (required name value) := by
  cases value with
  | some value => exact .pure value
  | none => exact .fail _ _

/-- A field of a list is local when the reader of its item is. -/
theorem fieldAt_isLocal (name : String) (fields place : Nat) (readerLocal : IsLocal reader) :
    IsLocal (fieldAt name fields place reader) := by
  apply (item?_isLocal readerLocal _).bind
  intro found
  cases found with
  | some value => exact .pure value
  | none => exact .fail _ _

theorem fieldOr_isLocal (place : Nat) (readerLocal : IsLocal reader) (absent : Value) :
    IsLocal (fieldOr place reader absent) := by
  apply (item?_isLocal readerLocal _).bind
  intro found
  cases found with
  | some value => exact .pure value
  | none => exact .pure absent

/-- A name, alone or as the one key of an object, is local. -/
theorem variant_isLocal (ofName? : String → Option Value) (known : List String) :
    IsLocal (variant ofName? known) := by
  have keyLocal : IsLocal variantKey :=
    .onToken fun _ => .ite (.pure _) (.ite (.fail _ _) (.fail _ _))
  apply IsLocal.onToken
  intro byte
  apply IsLocal.ite
  · apply textAs_isLocal
    intro name
    cases ofName? name with
    | none => exact .fail _ _
    | some value => exact .pure _
  · apply IsLocal.ite
    · apply skipByte_isLocal.bind
      intro _
      apply keyLocal.bind
      intro _
      apply IsLocal.bind
      · apply textAs_isLocal
        intro name
        cases ofName? name with
        | none => exact .fail _ _
        | some value => exact .pure _
      · intro value
        apply takeColon_isLocal.bind
        intro _
        apply unit_isLocal.bind
        intro _
        apply IsLocal.onToken
        intro last
        exact .ite (skipByte_isLocal.bind fun _ => .pure _) (.fail _ _)
    · exact .fail _ _

end Composite

/-- The tags are local, as the entries of an object are. -/
theorem tagMap_isLocal : IsLocal tagMap := by
  apply IsLocal.onToken
  intro byte
  refine .ite ?_ (wrongType_isLocal _)
  apply skipByte_isLocal.bind
  intro _
  refine enclosed_isLocal ?_ closeObject_isLocal
  exact .map _ (entries_isLocal string_isLocal)

/-- Each bracket lowers the depth, so the induction is on it. -/
theorem tree_isLocal (depth : Nat) : IsLocal (tree depth) := by
  induction depth with
  | zero =>
      unfold tree
      refine .onToken fun byte => .ite (.fail _ _) (.ite (.fail _ _) (.ite ?_ (.ite ?_ (.ite ?_
        (.ite ?_ (.ite ?_ (.fail _ _)))))))
      · exact skipByte_isLocal.bind fun _ => .map _ text_isLocal
      · exact .map _ number_isLocal
      · exact skipByte_isLocal.bind fun _ => (letters_isLocal _).bind fun _ => .pure _
      · exact skipByte_isLocal.bind fun _ => (letters_isLocal _).bind fun _ => .pure _
      · exact skipByte_isLocal.bind fun _ => (letters_isLocal _).bind fun _ => .pure _
  | succ inner inductionHypothesis =>
      unfold tree
      refine .onToken fun byte => .ite ?_ (.ite ?_ (.ite ?_ (.ite ?_ (.ite ?_
        (.ite ?_ (.ite ?_ (.fail _ _)))))))
      · apply skipByte_isLocal.bind
        intro _
        refine enclosed_isLocal ?_ closeList_isLocal
        exact .map _ (items_isLocal inductionHypothesis)
      · apply skipByte_isLocal.bind
        intro _
        refine enclosed_isLocal ?_ closeObject_isLocal
        exact .map _ (entries_isLocal inductionHypothesis)
      · exact skipByte_isLocal.bind fun _ => .map _ text_isLocal
      · exact .map _ number_isLocal
      · exact skipByte_isLocal.bind fun _ => (letters_isLocal _).bind fun _ => .pure _
      · exact skipByte_isLocal.bind fun _ => (letters_isLocal _).bind fun _ => .pure _
      · exact skipByte_isLocal.bind fun _ => (letters_isLocal _).bind fun _ => .pure _

end LightList.Json.Reader
