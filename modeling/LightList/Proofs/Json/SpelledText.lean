/-
This file shows that a string is read as the text that was written, however it is escaped, and that
skipping it takes the same bytes.
-/

import LightList.Proofs.Json.Outcome
import LightList.Proofs.TextBytes

namespace LightList.Json.Reader

/-- A visible byte that is no quote and no backslash stands for itself. -/
theorem isTextByte_ofNat {code : Nat} (above : 0x20 ≤ code) (below : code < 256)
    (notQuote : code ≠ 0x22) (notBackslash : code ≠ 0x5c) :
    isTextByte (UInt8.ofNat code) = true := by
  have value : (UInt8.ofNat code).toNat = code := by
    rw [UInt8.toNat_ofNat', Nat.mod_eq_of_lt below]
  have differs {byte : UInt8} (other : code ≠ byte.toNat) : UInt8.ofNat code ≠ byte := by
    rintro rfl
    exact other value.symm
  simp only [isTextByte, Bool.and_eq_true, decide_eq_true_eq, UInt8.le_iff_toNat_le, value,
    bne_iff_ne]
  exact ⟨⟨above, differs notQuote⟩, differs notBackslash⟩

/-- The bytes of a character stand for themselves if the character does. -/
theorem isTextByte_utf8EncodeChar {character : Char} (above : 0x20 ≤ character.toNat)
    (notQuote : character ≠ '"') (notBackslash : character ≠ '\\') :
    (String.utf8EncodeChar character).all isTextByte = true := by
  have isCode : character.val.toNat = character.toNat := rfl
  have further (code : Nat) : isTextByte (UInt8.ofNat (code % 64 + 128)) = true :=
    isTextByte_ofNat (by omega) (by omega) (by omega) (by omega)
  have leading {code : Nat} (large : 0xc0 ≤ code) (below : code < 256) :
      isTextByte (UInt8.ofNat code) = true :=
    isTextByte_ofNat (by omega) (by omega) (by omega) (by omega)
  unfold String.utf8EncodeChar
  simp only [isCode]
  split
  · simp only [List.all_cons, List.all_nil, Bool.and_true]
    apply isTextByte_ofNat above (by omega)
    · intro same
      exact notQuote (Char.toNat_inj.1 same)
    · intro same
      exact notBackslash (Char.toNat_inj.1 same)
  · split
    · simp only [List.all_cons, further, List.all_nil, Bool.and_true]
      exact leading (by omega) (by omega)
    · split
      · simp only [List.all_cons, further, List.all_nil, Bool.and_true]
        exact leading (by omega) (by omega)
      · simp only [List.all_cons, further, List.all_nil, Bool.and_true]
        exact leading (by omega) (by omega)

/-- The bytes of a text are decoded to this text. -/
theorem textOfBytes?_utf8 (text : String) :
    textOfBytes? (text.toList.flatMap String.utf8EncodeChar) = some text := by
  rw [← Text.bytes_eq]
  exact Text.fromUTF8?_bytes text

section Escapes

variable {character : Char} {rest : List UInt8}

/-- Four hexadecimal digits are read as their code. -/
theorem outcome?_hexCode {code : Nat} {digits : List UInt8} (writes : WritesCode code digits) :
    outcome? hexCode (digits ++ rest) = some (code, rest) := by
  cases writes with
  | digits first second third fourth =>
      simp only [outcome?, hexCode, List.cons_append, List.nil_append, first, second, third,
        fourth]

/-- The bytes made for a code are those of its character. -/
theorem codePointBytes_toNat (character : Char) :
    codePointBytes character.toNat = String.utf8EncodeChar character := by
  rw [codePointBytes, Char.ofNat_toNat]

/-- A character of 16 bits is no surrogate. -/
theorem outcome?_unicodeEscape_code {digits : List UInt8}
    (writes : WritesCode character.toNat digits) :
    outcome? unicodeEscape (digits ++ rest) = some (String.utf8EncodeChar character, rest) := by
  have valid : character.toNat < 0xd800 ∨ 0xdfff < character.toNat ∧ character.toNat < 0x110000 :=
    character.valid
  have notTrailing : isTrailingSurrogate character.toNat = false := by
    simp only [isTrailingSurrogate, Bool.and_eq_false_iff, decide_eq_false_iff_not]
    omega
  have notLeading : isLeadingSurrogate character.toNat = false := by
    simp only [isLeadingSurrogate, Bool.and_eq_false_iff, decide_eq_false_iff_not]
    omega
  rw [unicodeEscape, outcome?_bind, outcome?_hexCode writes, Option.bind_some]
  dsimp only
  rw [notTrailing, notLeading, if_neg Bool.false_ne_true, if_neg Bool.false_ne_true,
    codePointBytes_toNat]
  rfl

/-- Two escapes make one character where the first is a high and the second a low half. -/
theorem outcome?_unicodeEscape_pair {high low : Nat} {leading trailing : List UInt8}
    (code : character.toNat = 0x10000 + high * 0x400 + low) (lowBelow : low < 0x400)
    (first : WritesCode (0xd800 + high) leading) (second : WritesCode (0xdc00 + low) trailing) :
    outcome? unicodeEscape (leading ++ (backslash :: letterU :: trailing ++ rest)) =
      some (String.utf8EncodeChar character, rest) := by
  have valid : character.toNat < 0xd800 ∨ 0xdfff < character.toNat ∧ character.toNat < 0x110000 :=
    character.valid
  have notTrailing : isTrailingSurrogate (0xd800 + high) = false := by
    simp only [isTrailingSurrogate, Bool.and_eq_false_iff, decide_eq_false_iff_not]
    omega
  have isLeading : isLeadingSurrogate (0xd800 + high) = true := by
    simp only [isLeadingSurrogate, Bool.and_eq_true, decide_eq_true_eq]
    omega
  have isTrailing : isTrailingSurrogate (0xdc00 + low) = true := by
    simp only [isTrailingSurrogate, Bool.and_eq_true, decide_eq_true_eq]
    omega
  have joined : (0xd800 + high - 0xd800) * 0x400 + (0xdc00 + low - 0xdc00) + 0x10000 =
      character.toNat := by
    omega
  have taken (byte : UInt8) (tail : List UInt8) :
      outcome? (pairByte byte) (byte :: tail) = some ((), tail) := by
    simp [pairByte, outcome?_bind]
  simp only [unicodeEscape, outcome?_bind, outcome?_hexCode first, Option.bind_some, notTrailing,
    isLeading, if_true, if_neg Bool.false_ne_true, List.cons_append, taken,
    outcome?_hexCode second, isTrailing, joined, codePointBytes_toNat, outcome?_pure]

/-- Each of these letters stands for its character. -/
theorem shortEscape?_of_mem {letter : UInt8} (listed : (letter, character) ∈ letterEscapes) :
    letter ≠ letterU ∧ ∃ byte, shortEscape? letter = some byte ∧
      String.utf8EncodeChar character = [byte] := by
  simp only [letterEscapes, List.mem_cons, Prod.mk.injEq, List.not_mem_nil, or_false] at listed
  rcases listed with ⟨rfl, rfl⟩ | ⟨rfl, rfl⟩ | ⟨rfl, rfl⟩ | ⟨rfl, rfl⟩ | ⟨rfl, rfl⟩ | ⟨rfl, rfl⟩ |
    ⟨rfl, rfl⟩ | ⟨rfl, rfl⟩ <;> exact ⟨by decide, _, rfl, rfl⟩

/-- A written character stands for itself or is an escape that is read as it. -/
theorem plain_or_escape {bytes : List UInt8} (writes : WritesChar character bytes) :
    bytes = String.utf8EncodeChar character ∧ bytes.all isTextByte = true ∨
      ∃ tail, bytes = backslash :: tail ∧ ∀ rest,
        outcome? escape (tail ++ rest) = some (String.utf8EncodeChar character, rest) := by
  cases writes with
  | plain above notQuote notBackslash =>
      exact .inl ⟨rfl, isTextByte_utf8EncodeChar above notQuote notBackslash⟩
  | @letter letter _ listed =>
      apply Or.inr
      obtain ⟨notCode, byte, found, encoded⟩ := shortEscape?_of_mem listed
      refine ⟨[letter], rfl, ?_⟩
      intro rest
      simp only [escape, outcome?_bind, outcome?_peek, outcome?_skipByte, List.cons_append,
        List.nil_append, List.head?_cons, List.tail_cons, Option.bind_some, if_neg notCode, found,
        outcome?_pure, encoded]
  | @code _ digits writes =>
      apply Or.inr
      refine ⟨letterU :: digits, rfl, ?_⟩
      intro rest
      simp only [escape, outcome?_bind, outcome?_peek, outcome?_skipByte, List.cons_append,
        List.head?_cons, List.tail_cons, Option.bind_some, if_true,
        outcome?_unicodeEscape_code writes]
  | @pair _ high low leading trailing code lowBelow first second =>
      apply Or.inr
      refine ⟨_, rfl, ?_⟩
      intro rest
      have read :
          outcome? unicodeEscape (leading ++ (backslash :: letterU :: trailing ++ rest)) =
            some (String.utf8EncodeChar character, rest) :=
        outcome?_unicodeEscape_pair code lowBelow first second
      simp only [escape, outcome?_bind, outcome?_peek, outcome?_skipByte, List.cons_append,
        List.append_assoc, List.head?_cons, List.tail_cons, Option.bind_some, if_true] at read ⊢
      exact read

end Escapes

/-- Bytes that stand for themselves join the run before them. -/
theorem run_append {bytes : List UInt8} (plain : bytes.all isTextByte = true)
    (input : List UInt8) :
    run (bytes ++ input) =
      match run input with
      | .ok (taken, rest) => .ok (bytes ++ taken, rest)
      | .error fault => .error fault := by
  have all := List.all_eq_true.1 plain
  unfold run
  rw [List.dropWhile_append_of_pos all, List.takeWhile_append_of_pos all]
  cases input.dropWhile isTextByte with
  | nil => rfl
  | cons byte rest =>
      dsimp only
      split
      · rfl
      · rfl

/-- So they may as well have been taken before. -/
theorem textWithin_append {bytes : List UInt8} (plain : bytes.all isTextByte = true)
    (first : UInt8) (bound taken input : List UInt8) :
    textWithin (first :: bound) taken (bytes ++ input) =
      textWithin (first :: bound) (bytes.reverse ++ taken) input := by
  unfold textWithin
  rw [bind_apply, bind_apply, run_append plain]
  cases run input with
  | error fault => rfl
  | ok result =>
      have joined : (bytes ++ result.1).reverse ++ taken =
          result.1.reverse ++ (bytes.reverse ++ taken) := by
        rw [List.reverse_append, List.append_assoc]
      dsimp only
      rw [joined]

/-- A quote or a backslash ends the run at once. -/
theorem outcome?_run {byte : UInt8} (ends : byte = quote ∨ byte = backslash)
    (rest : List UInt8) : outcome? run (byte :: rest) = some ([], byte :: rest) := by
  rcases ends with rfl | rfl
  · rfl
  · rfl

/-- Behind a backslash the escape gives the next bytes of the text. -/
theorem outcome?_textWithin_escape (first : UInt8) (bound taken tail : List UInt8) :
    outcome? (textWithin (first :: bound) taken) (backslash :: tail) =
      (outcome? escape tail).bind fun escaped =>
        outcome? (textWithin bound (escaped.1.reverse ++ taken)) escaped.2 := by
  have different : some backslash ≠ some quote := by decide
  rw [textWithin, outcome?_bind, outcome?_run (.inr rfl), Option.bind_some, outcome?_bind,
    outcome?_peek, Option.bind_some, outcome?_bind, outcome?_skipByte, Option.bind_some]
  exact (congrArg (outcome? · _) (if_neg different)).trans (outcome?_bind _ _ _)

/-- All characters up to the closing quote are collected, however each is spelled. -/
theorem outcome?_textWithin {characters : List Char} {bytes : List UInt8}
    (writes : WritesChars characters bytes) (bound taken rest : List UInt8)
    (enough : bytes.length < bound.length) :
    outcome? (textWithin bound taken) (bytes ++ quote :: rest) =
      some (taken.reverse ++ characters.flatMap String.utf8EncodeChar, rest) := by
  induction writes generalizing bound taken with
  | nil =>
      cases bound with
      | nil => cases enough
      | cons first bound =>
          simp [textWithin, outcome?_bind, outcome?_run (.inl rfl)]
  | @cons character characters front back writesChar writesRest inductionHypothesis =>
      cases bound with
      | nil => cases enough
      | cons first bound =>
          rw [List.length_append] at enough
          rw [List.append_assoc, List.flatMap_cons]
          rcases plain_or_escape writesChar with ⟨isPlain, plain⟩ | ⟨tail, rfl, escaped⟩
          · have continued := inductionHypothesis (first :: bound) (front.reverse ++ taken)
              (by omega)
            unfold outcome? at continued ⊢
            rw [textWithin_append plain, continued, isPlain]
            simp
          · rw [List.length_cons, List.length_cons] at enough
            rw [List.cons_append, outcome?_textWithin_escape, escaped, Option.bind_some,
              inductionHypothesis bound _ (by omega)]
            simp

/-- A string is read as the text that was written. -/
theorem outcome?_text {value : String} {bytes : List UInt8} (writes : WritesText value bytes)
    (rest : List UInt8) :
    outcome? text (bytes ++ quote :: rest) = some (value, rest) := by
  rw [outcome?_eq_some_iff, text_eq_ok]
  refine ⟨value.toList.flatMap String.utf8EncodeChar, ?_, textOfBytes?_utf8 value⟩
  rw [← outcome?_eq_some_iff]
  apply outcome?_textWithin writes
  rw [List.length_append, List.length_cons]
  omega

/-- Skipping passes these bytes and then goes on, and no round of it passes none of them. -/
def Passes (bytes : List UInt8) : Prop :=
  ∀ bound input, bytes.length ≤ bound.length →
    ∃ further, bound.length ≤ further.length + bytes.length ∧
      outcome? (skipTextWithin bound) (bytes ++ input) = outcome? (skipTextWithin further) input

namespace Passes

theorem nil : Passes [] := by
  intro bound input _
  exact ⟨bound, Nat.le_refl _, rfl⟩

theorem append {first second : List UInt8} (passesFirst : Passes first)
    (passesSecond : Passes second) : Passes (first ++ second) := by
  intro bound input enough
  rw [List.length_append] at enough
  obtain ⟨middle, middleLength, firstRead⟩ :=
    passesFirst bound (second ++ input) (by omega)
  obtain ⟨further, furtherLength, secondRead⟩ := passesSecond middle input (by omega)
  refine ⟨further, ?_, ?_⟩
  · rw [List.length_append]
    omega
  · rw [List.append_assoc, firstRead, secondRead]

theorem textByte {byte : UInt8} (plain : isTextByte byte = true) : Passes [byte] := by
  intro bound input enough
  cases bound with
  | nil => cases enough
  | cons first bound =>
      simp only [isTextByte, Bool.and_eq_true, decide_eq_true_eq, bne_iff_ne] at plain
      obtain ⟨⟨above, notQuote⟩, notBackslash⟩ := plain
      refine ⟨bound, Nat.le_refl _, ?_⟩
      have notControl : ¬ byte < 0x20 := UInt8.not_lt.2 above
      simp only [skipTextWithin, outcome?_bind, outcome?_peek, outcome?_skipByte,
        List.cons_append, List.nil_append, List.head?_cons, List.tail_cons, Option.bind_some,
        if_neg notControl, if_neg notQuote, if_neg notBackslash]

theorem textBytes {bytes : List UInt8} (plain : bytes.all isTextByte = true) : Passes bytes := by
  induction bytes with
  | nil => exact nil
  | cons byte rest inductionHypothesis =>
      rw [List.all_cons, Bool.and_eq_true] at plain
      exact (textByte plain.1).append (inductionHypothesis plain.2)

/-- One round passes a whole escape. -/
theorem escape {tail : List UInt8}
    (skips : ∀ rest, outcome? skipEscape (tail ++ rest) = some ((), rest)) :
    Passes (backslash :: tail) := by
  intro bound input enough
  cases bound with
  | nil => cases enough
  | cons first bound =>
      refine ⟨bound, ?_, ?_⟩
      · rw [List.length_cons, List.length_cons]
        omega
      · have notControl : ¬ backslash < 0x20 := by decide
        have notQuote : ¬ backslash = quote := by decide
        simp only [skipTextWithin, outcome?_bind, outcome?_peek, outcome?_skipByte,
          List.cons_append, List.head?_cons, List.tail_cons, Option.bind_some,
          if_neg notControl, if_neg notQuote, if_true, skips]

/-- An escaped code is passed, also one that is no character. -/
theorem code {code : Nat} {digits : List UInt8} (writes : WritesCode code digits) :
    Passes (backslash :: letterU :: digits) := by
  apply escape
  intro rest
  simp only [skipEscape, outcome?_bind, outcome?_peek, outcome?_skipByte, List.cons_append,
    List.head?_cons, List.tail_cons, Option.bind_some, if_true, outcome?_hexCode writes,
    outcome?_pure]

/-- Every spelling of a character is passed. -/
theorem writesChar {character : Char} {bytes : List UInt8}
    (writes : WritesChar character bytes) : Passes bytes := by
  cases writes with
  | plain above notQuote notBackslash =>
      exact textBytes (isTextByte_utf8EncodeChar above notQuote notBackslash)
  | letter listed =>
      apply escape
      intro rest
      obtain ⟨notCode, byte, found, _⟩ := shortEscape?_of_mem listed
      simp [skipEscape, outcome?_bind, notCode, found]
  | code writes => exact code writes
  | pair _ _ first second => exact (code first).append (code second)

/-- Every spelling of several characters is passed. -/
theorem writesChars {characters : List Char} {bytes : List UInt8}
    (writes : WritesChars characters bytes) : Passes bytes := by
  induction writes with
  | nil => exact nil
  | cons writesFirst _ inductionHypothesis =>
      exact (writesChar writesFirst).append inductionHypothesis

end Passes

/-- Skipping a string takes what reading it takes. -/
theorem outcome?_skipText {value : String} {bytes : List UInt8} (writes : WritesText value bytes)
    (rest : List UInt8) :
    outcome? skipText (bytes ++ quote :: rest) = some ((), rest) := by
  have length : (bytes ++ quote :: rest).length = bytes.length + (rest.length + 1) := by
    rw [List.length_append, List.length_cons]
  obtain ⟨further, furtherLength, read⟩ :=
    Passes.writesChars writes (bytes ++ quote :: rest) (quote :: rest) (by omega)
  change outcome? (skipTextWithin (bytes ++ quote :: rest)) (bytes ++ quote :: rest) = _
  rw [read]
  cases further with
  | nil =>
      rw [List.length_nil] at furtherLength
      omega
  | cons first further => rfl

end LightList.Json.Reader
