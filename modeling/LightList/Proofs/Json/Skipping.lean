/-
This file shows that a value of any shape can be skipped and that exactly its bytes are taken.

The value may stand at any depth, so the statements leave the stack open. The bytes of a value are
enough to bound the rounds that skip it, since every round takes at least one of them.
-/

import LightList.Proofs.Json.Layout

namespace LightList.Json.Reader

section Numbers

variable {rest : List UInt8}

/-- An exponent is passed if there is one. -/
theorem outcome?_skipExponentOrEnd (exponent : Option Exponent) (delimited : Delimited rest) :
    outcome? skipExponentOrEnd (Numeral.exponentBytes exponent ++ rest) = some ((), rest) := by
  cases exponent with
  | none =>
      rw [skipExponentOrEnd, outcome?_bind, outcome?_peek, Option.bind_some,
        Numeral.exponentBytes, List.nil_append, delimited.noMark]
      rfl
  | some exponent =>
      have marked : (exponent.bytes ++ rest).head?.any isExponentMark = true := exponent.isMark
      obtain ⟨byte, more, written, isDigit, areDigits⟩ := exponent.digits.exists_cons
      rw [skipExponentOrEnd, outcome?_bind, outcome?_peek, Option.bind_some,
        Numeral.exponentBytes, if_pos marked]
      simp only [skipExponent, Exponent.bytes, outcome?_bind, outcome?_skipByte,
        Option.bind_some, List.cons_append, List.append_assoc, List.tail_cons, written,
        outcome?_exponentSign exponent written, outcome?_peek, List.head?_cons, isDigit, if_true,
        outcome?_skipDigits, dropWhile_digits areDigits delimited.noDigit]

/-- A fraction and an exponent are passed if they are there. -/
theorem outcome?_skipAfterDigits (fraction : Option Digits) (exponent : Option Exponent)
    (delimited : Delimited rest) :
    outcome? skipAfterDigits
        (Numeral.fractionBytes fraction ++ (Numeral.exponentBytes exponent ++ rest)) =
      some ((), rest) := by
  cases fraction with
  | none =>
      have notPoint : (Numeral.exponentBytes exponent ++ rest).head? ≠ some point := by
        cases exponent with
        | none => exact delimited.noPoint
        | some exponent =>
            intro isPoint
            have isMark := exponent.isMark
            rw [show exponent.mark = point from Option.some.inj isPoint] at isMark
            cases isMark
      rw [skipAfterDigits, outcome?_bind, outcome?_peek, Option.bind_some,
        Numeral.fractionBytes, List.nil_append, if_neg notPoint]
      exact outcome?_skipExponentOrEnd exponent delimited
  | some digits =>
      have ended := exponentBytes_noDigit exponent delimited
      obtain ⟨byte, more, written, isDigit, areDigits⟩ := digits.exists_cons
      rw [skipAfterDigits, outcome?_bind, outcome?_peek, Option.bind_some,
        Numeral.fractionBytes, List.cons_append, List.head?_cons, if_pos rfl]
      simp only [skipFraction, outcome?_bind, outcome?_skipByte, Option.bind_some,
        List.tail_cons, outcome?_atDigit, written, List.cons_append, List.head?_cons,
        Option.any_some, isDigit, if_true, outcome?_skipDigits,
        List.dropWhile_cons_of_pos isDigit, dropWhile_digits areDigits ended,
        outcome?_skipExponentOrEnd exponent delimited]

/-- A number is skipped whatever its range. -/
theorem outcome?_skipNumber (numeral : Numeral) (delimited : Delimited rest) :
    outcome? skipNumber (numeral.bytes ++ rest) = some ((), rest) := by
  have ended := fractionBytes_noDigit numeral.fraction numeral.exponent delimited
  obtain ⟨byte, more, written, isDigit, areDigits⟩ := numeral.whole.exists_cons
  have unsignedRead :
      outcome? skipUnsigned
          (numeral.whole.bytes ++ (Numeral.fractionBytes numeral.fraction ++
            (Numeral.exponentBytes numeral.exponent ++ rest))) = some ((), rest) := by
    by_cases isZero : byte = zero
    · have alone : numeral.whole.bytes = [zero] := by
        apply numeral.zeroAlone
        rw [written, isZero]
        rfl
      simp only [alone, skipUnsigned, outcome?_bind, outcome?_peek, outcome?_skipByte,
        Option.bind_some, List.cons_append, List.head?_cons, List.tail_cons, List.nil_append,
        outcome?_atDigit, ended, if_true, if_neg Bool.false_ne_true,
        outcome?_skipAfterDigits _ _ delimited]
    · simp only [written, skipUnsigned, outcome?_bind, outcome?_peek, outcome?_skipByte,
        Option.bind_some, List.cons_append, List.head?_cons, List.tail_cons, if_neg isZero,
        isDigit, if_true, outcome?_skipDigits, dropWhile_digits areDigits ended,
        outcome?_skipAfterDigits _ _ delimited]
  simp only [Numeral.bytes, List.append_assoc]
  cases numeral.isNegative with
  | true => exact unsignedRead
  | false =>
      have notMinus : some byte ≠ some minus := by
        intro same
        rw [Option.some.inj same] at isDigit
        exact absurd isDigit (by decide)
      rw [written] at unsignedRead ⊢
      rw [skipNumber, outcome?_bind, outcome?_peek, Option.bind_some]
      exact (congrArg (outcome? · _) (if_neg notMinus)).trans unsignedRead

end Numbers

/-- The letters of a name are passed. -/
theorem outcome?_letters (name : List UInt8) (rest : List UInt8) :
    outcome? (letters name) (name ++ rest) = some ((), rest) := by
  induction name with
  | nil => rfl
  | cons letter more inductionHypothesis =>
      simp only [letters, outcome?_bind, outcome?_peek, outcome?_skipByte, Option.bind_some,
        List.cons_append, List.head?_cons, List.tail_cons, if_true, inductionHypothesis]

/-- This reads on behind the opening bracket of a value that stands on the stack. -/
def skipInner (bracket : Bracket) (bound : List UInt8) (stack : List Bracket) : Reader Unit := do
  if ← closedAtOnce bracket then skipWithin bound false stack
  else
    skipKey bracket
    skipWithin bound true (bracket :: stack)

/-- Behind these bytes the rounds go on with a bound that has lost no more than these. -/
def PassesTo (bytes bound : List UInt8) (reader : Reader Unit) (input : List UInt8)
    (stack : List Bracket) (rest : List UInt8) : Prop :=
  ∃ further, bound.length ≤ further.length + bytes.length ∧
    outcome? reader input = outcome? (skipWithin further false stack) rest

/-- A value that is due is skipped at any depth. -/
def SkipsValue (bytes : List UInt8) : Prop :=
  ∀ bound stack gap rest, IsGap gap → Delimited rest → bytes.length ≤ bound.length →
    PassesTo bytes bound (skipWithin bound true stack) (gap ++ (bytes ++ rest)) stack rest

/-- So is an item inside a bracket, with its key if there is one. -/
def SkipsItem (bracket : Bracket) (bytes : List UInt8) : Prop :=
  ∀ bound stack gap rest, IsGap gap → Delimited rest → bytes.length ≤ bound.length →
    PassesTo bytes bound
      (do
        skipKey bracket
        skipWithin bound true (bracket :: stack))
      (gap ++ (bytes ++ rest)) (bracket :: stack) rest

section Items

variable {Item : Type} {Writes : Item → List UInt8 → Prop} {bracket : Bracket}

/-- An item of a list is passed when its value is. -/
theorem SkipsItem.ofValue {bytes : List UInt8} (skips : SkipsValue bytes) :
    SkipsItem .list bytes := by
  intro bound stack gap rest isGap delimited enough
  exact skips bound (.list :: stack) gap rest isGap delimited enough

/-- The key and the colon are taken before the value is due. -/
theorem SkipsItem.ofMember {entry : String × Item} {bytes : List UInt8}
    (skips : ∀ core, Writes entry.2 core → SkipsValue core)
    (writes : WritesMember Writes entry bytes) : SkipsItem .object bytes := by
  intro bound stack gap rest isGap delimited enough
  cases writes with
  | @pair key value text before after core writesKey isBefore isAfter writesValue =>
      simp only [List.length_cons, List.length_append] at enough
      obtain ⟨further, longEnough, read⟩ :=
        skips core writesValue bound (.object :: stack) after rest isAfter delimited (by omega)
      refine ⟨further, ?_, ?_⟩
      · simp only [List.length_cons, List.length_append]
        omega
      · have keyTaken :
            outcome? (skipKey .object)
                (gap ++ (quote :: (text ++ quote :: (before ++ colon :: (after ++ core))) ++
                  rest)) =
              some ((), after ++ (core ++ rest)) := by
          simp only [List.cons_append, List.append_assoc]
          rw [skipKey, outcome?_token isGap rfl]
          simp only [if_true, outcome?_bind, outcome?_skipByte, Option.bind_some, List.tail_cons,
            outcome?_skipText writesKey, outcome?_takeColon isBefore]
        rw [outcome?_bind, keyTaken, Option.bind_some, read]

/-- After a value the further items are skipped, and then the closing bracket. -/
theorem skipWithin_rest {items : List Item}
    (skips : ∀ item ∈ items, ∀ bytes, Writes item bytes → SkipsItem bracket bytes)
    {inner : List UInt8} (writes : WritesList Writes false items inner) (bound : List UInt8)
    (stack : List Bracket) (rest : List UInt8) (enough : inner.length < bound.length) :
    PassesTo (inner ++ [bracket.close]) bound (skipWithin bound false (bracket :: stack))
      (inner ++ bracket.close :: rest) stack rest := by
  have notComma : bracket.close ≠ comma := by cases bracket <;> decide
  induction items generalizing inner bound with
  | nil =>
      cases bound with
      | nil => cases enough
      | cons first bound =>
          cases writes with
          | done isGap =>
              refine ⟨bound, ?_, ?_⟩
              · simp only [List.length_cons, List.length_append, List.length_nil]
                omega
              · have solid : isBlank bracket.close = false := by cases bracket <;> rfl
                rw [skipWithin, outcome?_bind, commaFollows, outcome?_token isGap solid]
                dsimp only
                rw [if_neg notComma, if_pos rfl]
                rfl
  | cons item more inductionHypothesis =>
      cases bound with
      | nil => cases enough
      | cons first bound =>
          cases writes with
          | @next _ _ before after core tail isBefore isAfter writesItem writesRest =>
              simp only [List.length_cons, List.length_append] at enough
              have delimited : Delimited (tail ++ bracket.close :: rest) :=
                .list_append writesRest (.bracket bracket rest)
              obtain ⟨middle, middleLength, itemRead⟩ :=
                skips item List.mem_cons_self core writesItem bound stack after _ isAfter
                  delimited (by omega)
              obtain ⟨further, furtherLength, restRead⟩ :=
                inductionHypothesis
                  (fun other member => skips other (List.mem_cons_of_mem item member))
                  writesRest middle (by omega)
              refine ⟨further, ?_, ?_⟩
              · simp only [List.length_cons, List.length_append] at furtherLength ⊢
                omega
              · simp only [List.append_assoc, List.cons_append]
                rw [← restRead, ← itemRead, skipWithin, outcome?_bind, commaFollows,
                  outcome?_token isBefore rfl]
                rfl

/-- Behind an opening bracket the items are skipped and then the closing bracket. -/
theorem skipInner_passes {items : List Item}
    (opens : ∀ item bytes, Writes item bytes → Opens bytes)
    (skips : ∀ item ∈ items, ∀ bytes, Writes item bytes → SkipsItem bracket bytes)
    {inner : List UInt8} (writes : WritesList Writes true items inner) (bound : List UInt8)
    (stack : List Bracket) (rest : List UInt8) (enough : inner.length < bound.length) :
    PassesTo (inner ++ [bracket.close]) bound (skipInner bracket bound stack)
      (inner ++ bracket.close :: rest) stack rest := by
  cases writes with
  | done isGap =>
      refine ⟨bound, Nat.le_add_right _ _, ?_⟩
      have solid : isBlank bracket.close = false := by cases bracket <;> rfl
      rw [skipInner, outcome?_bind, closedAtOnce, outcome?_token isGap solid]
      dsimp only
      rw [if_pos rfl]
      rfl
  | @first item more gap core tail isGap writesItem writesRest =>
      simp only [List.length_append] at enough
      have delimited : Delimited (tail ++ bracket.close :: rest) :=
        .list_append writesRest (.bracket bracket rest)
      obtain ⟨middle, middleLength, itemRead⟩ :=
        skips item List.mem_cons_self core writesItem bound stack [] _ rfl delimited (by omega)
      have coreLength : 0 < core.length := by
        obtain ⟨byte, behind, rfl, _⟩ := opens item core writesItem
        exact Nat.succ_pos _
      obtain ⟨further, furtherLength, restRead⟩ :=
        skipWithin_rest (fun other member => skips other (List.mem_cons_of_mem item member))
          writesRest middle stack rest (by omega)
      refine ⟨further, ?_, ?_⟩
      · simp only [List.length_cons, List.length_append] at furtherLength ⊢
        omega
      · obtain ⟨byte, behind, rfl, solid, notList, notObject⟩ := opens item core writesItem
        have notClosed : byte ≠ bracket.close := by
          cases bracket with
          | list => exact notList
          | object => exact notObject
        rw [← restRead, ← itemRead, skipInner, outcome?_bind, closedAtOnce, List.append_assoc,
          List.append_assoc, List.cons_append, outcome?_token isGap solid]
        dsimp only
        rw [if_neg notClosed]
        rfl

end Items

/-- A value without inner ones takes one round. -/
theorem SkipsValue.ofScalar {bytes : List UInt8} (nonempty : bytes ≠ [])
    (taken : ∀ gap rest, IsGap gap → Delimited rest →
      outcome? scalarOrBracket (gap ++ (bytes ++ rest)) = some (none, rest)) :
    SkipsValue bytes := by
  intro bound stack gap rest isGap delimited enough
  have length := List.length_pos_iff.2 nonempty
  cases bound with
  | nil =>
      rw [List.length_nil] at enough
      omega
  | cons first bound =>
      refine ⟨bound, ?_, ?_⟩
      · rw [List.length_cons]
        omega
      · rw [skipWithin, outcome?_bind, taken gap rest isGap delimited]
        rfl

/-- This is the bracket that opens a list or an object. -/
def openingOf : Bracket → UInt8
  | .list => openBracket
  | .object => openBrace

/-- A value with inner ones opens its bracket, and then its items are skipped. -/
theorem SkipsValue.ofItems {Item : Type} {Writes : Item → List UInt8 → Prop} {items : List Item}
    {bracket : Bracket} (opens : ∀ item bytes, Writes item bytes → Opens bytes)
    (skips : ∀ item ∈ items, ∀ bytes, Writes item bytes → SkipsItem bracket bytes)
    {inner : List UInt8} (writes : WritesList Writes true items inner) :
    SkipsValue (openingOf bracket :: (inner ++ [bracket.close])) := by
  intro bound stack gap rest isGap delimited enough
  simp only [List.length_cons, List.length_append, List.length_nil] at enough
  cases bound with
  | nil => cases enough
  | cons first bound =>
      rw [List.length_cons] at enough
      obtain ⟨further, longEnough, read⟩ :=
        skipInner_passes opens skips writes bound stack rest (by omega)
      refine ⟨further, ?_, ?_⟩
      · simp only [List.length_cons] at longEnough ⊢
        omega
      · rw [← read]
        simp only [List.cons_append, List.append_assoc, List.nil_append]
        cases bracket with
        | list =>
            rw [skipWithin, outcome?_bind, scalarOrBracket, openingOf, outcome?_token isGap rfl]
            rfl
        | object =>
            rw [skipWithin, outcome?_bind, scalarOrBracket, openingOf, outcome?_token isGap rfl]
            rfl

/-- Every numeral is passed, also one that is out of range. -/
theorem skipsNumber (numeral : Numeral) : SkipsValue numeral.bytes := by
  obtain ⟨byte, more, written, begins⟩ := numeral.bytes_eq_cons
  have notLetters : byte ≠ letterN ∧ byte ≠ letterT ∧ byte ≠ letterF := by
    rcases begins with rfl | isDigit
    · decide
    · refine ⟨?_, ?_, ?_⟩ <;>
        · rintro rfl
          exact absurd isDigit (by decide)
  have solid : isBlank byte = false := by
    rcases begins with rfl | isDigit
    · rfl
    · exact isBlank_of_isDigit isDigit
  apply SkipsValue.ofScalar
  · rw [written]
    exact List.cons_ne_nil byte more
  · intro gap rest isGap delimited
    have skipped := outcome?_skipNumber numeral delimited
    rw [written, List.cons_append] at skipped ⊢
    rw [scalarOrBracket, outcome?_token isGap solid]
    dsimp only
    rw [if_neg notLetters.1, if_neg notLetters.2.1, if_neg notLetters.2.2, if_pos begins,
      outcome?_bind, skipped]
    rfl

/-- A literal name is taken after its first letter. -/
theorem skipsName (first : UInt8) (name rest : List UInt8) :
    outcome?
        (do
          skipByte
          letters name
          return (none : Option Bracket))
        (first :: (name ++ rest)) = some (none, rest) := by
  simp only [outcome?_bind, outcome?_skipByte, Option.bind_some, List.tail_cons,
    outcome?_letters, outcome?_pure]

/-- A value of any shape is skipped at any depth. -/
theorem skipsValue (tree : Written) :
    ∀ bytes, Written.Writes tree bytes → SkipsValue bytes := by
  induction tree using Written.fromInner with
  | ofNull =>
      intro bytes writes
      cases writes
      apply SkipsValue.ofScalar (List.cons_ne_nil _ _)
      intro gap rest isGap _
      change outcome? scalarOrBracket (gap ++ letterN :: ([letterU, 0x6c, 0x6c] ++ rest)) = _
      rw [scalarOrBracket, outcome?_token isGap rfl]
      exact skipsName _ _ rest
  | ofBoolean value =>
      intro bytes writes
      cases writes
      cases value with
      | true =>
          apply SkipsValue.ofScalar (List.cons_ne_nil _ _)
          intro gap rest isGap _
          change outcome? scalarOrBracket
            (gap ++ letterT :: ([letterR, letterU, 0x65] ++ rest)) = _
          rw [scalarOrBracket, outcome?_token isGap rfl]
          exact skipsName _ _ rest
      | false =>
          apply SkipsValue.ofScalar (List.cons_ne_nil _ _)
          intro gap rest isGap _
          change outcome? scalarOrBracket
            (gap ++ letterF :: ([0x61, 0x6c, 0x73, 0x65] ++ rest)) = _
          rw [scalarOrBracket, outcome?_token isGap rfl]
          exact skipsName _ _ rest
  | ofNumber numeral =>
      intro bytes writes
      cases writes
      exact skipsNumber numeral
  | ofString text =>
      intro bytes writes
      cases writes with
      | @string _ bytes writesText =>
          apply SkipsValue.ofScalar (List.cons_ne_nil _ _)
          intro gap rest isGap _
          simp only [List.cons_append, List.append_assoc, List.nil_append]
          rw [scalarOrBracket, outcome?_token isGap rfl]
          change outcome? (skipText >>= fun _ => pure none) (bytes ++ quote :: rest) = _
          rw [outcome?_bind, outcome?_skipText writesText]
          rfl
  | ofArray items inductionHypothesis =>
      intro bytes writes
      cases writes with
      | array writesItems =>
          have skips : ∀ item ∈ items, ∀ bytes, Written.Writes item bytes →
              SkipsItem .list bytes := by
            intro item member core writesItem
            exact .ofValue (inductionHypothesis item member core writesItem)
          exact SkipsValue.ofItems (fun _ _ writes => writes.opens) skips writesItems
  | ofObject members inductionHypothesis =>
      intro bytes writes
      cases writes with
      | object writesMembers =>
          have skips : ∀ entry ∈ members, ∀ bytes, WritesMember Written.Writes entry bytes →
              SkipsItem .object bytes := by
            intro entry member core writesMember
            exact .ofMember (inductionHypothesis entry member) writesMember
          exact SkipsValue.ofItems (fun _ _ writes => writes.opens) skips writesMembers

section Values

variable {tree : Written} {core rest : List UInt8}

/-- Exactly the bytes of the value are taken. -/
theorem outcome?_skipValue {gap : List UInt8} (writes : Written.Writes tree core)
    (isGap : IsGap gap) (delimited : Delimited rest) :
    outcome? skipValue (gap ++ (core ++ rest)) = some ((), rest) := by
  have enough : core.length ≤ (gap ++ (core ++ rest)).length := by
    simp only [List.length_append]
    omega
  obtain ⟨further, _, read⟩ :=
    skipsValue tree core writes (gap ++ (core ++ rest)) [] gap rest isGap delimited enough
  change outcome? (skipWithin (gap ++ (core ++ rest)) true []) (gap ++ (core ++ rest)) = _
  rw [read, skipWithin, outcome?_pure]

/-- A field of an unknown name is passed with its value. -/
theorem outcome?_unknownField {before after : List UInt8} (isBefore : IsGap before)
    (isAfter : IsGap after) (writes : Written.Writes tree core) (delimited : Delimited rest) :
    outcome? unknownField (before ++ colon :: (after ++ (core ++ rest))) = some ((), rest) := by
  rw [unknownField, outcome?_bind, outcome?_takeColon isBefore, Option.bind_some,
    outcome?_skipValue writes isAfter delimited]

end Values

end LightList.Json.Reader
