/-
This file says that a reader takes what was written off the front of a span, and shows it of the
readers of single values.

Only the bytes of a span and its place in the source matter for this: a source without a flaw hands
out all bytes, whatever pieces it has.
-/

import LightList.Proofs.Pbf.Varint
import LightList.Proofs.TextBytes

namespace LightList.Pbf

namespace Span

/-- No flaw is in sight, and the source is so short that 32 bits hold every length in it. -/
structure IsSound (span : Span) : Prop where
  flawless : span.source.flaw? = none
  placed : span.position + span.bytes.length < Nat.pow 2 32

/-- A source without flaws that is not too long is read soundly. -/
theorem isSound_ofSource {bytes : List UInt8} {source : Source} (flawless : source.flaw? = none)
    (short : bytes.length < Nat.pow 2 32) : (Span.ofSource bytes source).IsSound := by
  constructor
  · exact flawless
  · change 0 + bytes.length < _
    omega

/-- A span is left with the given rest of its bytes. -/
structure Leaves (span : Span) (rest : List UInt8) (final : Span) : Prop where
  bytes : final.bytes = rest
  position : final.position + rest.length = span.position + span.bytes.length
  source : final.source = span.source

theorem Leaves.isSound {span final : Span} {rest : List UInt8} (leaves : span.Leaves rest final)
    (sound : span.IsSound) : final.IsSound := by
  constructor
  · rw [leaves.source]
    exact sound.flawless
  · rw [leaves.bytes, leaves.position]
    exact sound.placed

/-- A span can be left in two steps. -/
theorem Leaves.trans {span middle final : Span} {front back : List UInt8}
    (one : span.Leaves front middle) (other : middle.Leaves back final) :
    span.Leaves back final := by
  constructor
  · exact other.bytes
  · rw [other.position, one.bytes, one.position]
  · rw [other.source, one.source]

/-- Taking bytes from the front leaves the rest, whether they are taken one by one or at once. -/
theorem leaves_of_drop {span final : Span} {written rest : List UInt8}
    (split : span.bytes = written ++ rest) (bytes : final.bytes = span.bytes.drop written.length)
    (position : final.position = span.position + written.length)
    (source : final.source = span.source) : span.Leaves rest final := by
  constructor
  · rw [bytes, split, List.drop_left]
  · rw [position, split, List.length_append]
    omega
  · exact source

end Span

namespace Wire

/-- The reader takes what was written, with the given rest behind it, and gives the value. -/
def Takes {Value : Type} (reader : Reader Value) (written rest : List UInt8) (value : Value) :
    Prop :=
  ∀ span : Span, span.IsSound → span.bytes = written ++ rest →
    ∃ final, reader span = .ok (value, final) ∧ span.Leaves rest final

section Sequences

variable {First Second : Type} {front back rest : List UInt8}

theorem bind_of_ok {reader : Reader First} {next : First → Reader Second} {span middle : Span}
    {value : First} (read : reader span = .ok (value, middle)) :
    (reader >>= next) span = next value middle := by
  change (reader span >>= fun pair => next pair.1 pair.2) = _
  rw [read]
  rfl

/-- Readers that follow one another take what was written one after another. -/
theorem Takes.bind {reader : Reader First} {next : First → Reader Second} {value : First}
    {result : Second} (one : Takes reader front (back ++ rest) value)
    (other : Takes (next value) back rest result) :
    Takes (reader >>= next) (front ++ back) rest result := by
  intro span sound split
  obtain ⟨middle, read, leaves⟩ := one span sound (split.trans (List.append_assoc _ _ _))
  obtain ⟨final, readOn, leavesOn⟩ := other middle (leaves.isSound sound) leaves.bytes
  exact ⟨final, (bind_of_ok read).trans readOn, leaves.trans leavesOn⟩

theorem takes_pure (value : First) : Takes (pure value) [] rest value := by
  intro span sound split
  exact ⟨span, rfl, split, by rw [split, List.nil_append], rfl⟩

/-- A value that is read may be looked at without taking more. -/
theorem Takes.andThen {reader : Reader First} {next : First → Reader Second} {value : First}
    {result : Second} (one : Takes reader front rest value)
    (other : Takes (next value) [] rest result) : Takes (reader >>= next) front rest result := by
  have both : Takes (reader >>= next) (front ++ []) rest result := one.bind other
  rwa [List.append_nil] at both

/-- A change of the value takes nothing more. -/
theorem Takes.map {reader : Reader First} {value : First} (change : First → Second)
    (one : Takes reader front rest value) :
    Takes (reader >>= fun value => pure (change value)) front rest (change value) :=
  one.andThen (takes_pure (change value))

/-- What stands in a sound span is short. -/
theorem takes_of_short {reader : Reader First} {value : First}
    (takes : front.length < Nat.pow 2 32 → Takes reader front rest value) :
    Takes reader front rest value := by
  intro span sound split
  have placed := sound.placed
  rw [split, List.length_append] at placed
  exact takes (by omega) span sound split

end Sequences

section Numbers

variable {rest : List UInt8}

/-- A number of 64 bits is read back. -/
theorem takes_uint64 {value : Nat} (fits : value < Nat.pow 2 64) :
    Takes uint64 (varint value) rest value.toUInt64 := by
  intro span sound split
  have short : (varint value).length ≤ longLimit := length_varint_le_ten fits
  refine ⟨span.advance (varint value).length, ?_, Span.leaves_of_drop split rfl rfl rfl⟩
  unfold uint64
  rw [split, varintOf_varint short]
  exact if_pos fits

/-- A number of 32 bits is read back. -/
theorem takes_narrowed {value : Nat} (fits : value < Nat.pow 2 32) :
    Takes narrowed (varint value) rest value.toUInt32 := by
  have fitsLong : value < Nat.pow 2 64 := Nat.lt_trans fits (by decide)
  have same : value.toUInt64.toNat = value := toNat_toUInt64 fitsLong
  have narrow : value.toUInt64.toUInt32 = value.toUInt32 := by
    apply UInt32.toNat_inj.1
    simp
  refine (takes_uint64 fitsLong).andThen ?_
  rw [same, if_pos fits, narrow]
  exact takes_pure _

/-- A varint that is not wholly at hand is cut off, so it is read as a long one. -/
theorem takes_uint32 {value : Nat} (fits : value < Nat.pow 2 32) :
    Takes uint32 (varint value) rest value.toUInt32 := by
  intro span sound split
  have short : (varint value).length ≤ shortLimit :=
    length_varint_le (Nat.lt_trans fits (by decide : Nat.pow 2 32 < Nat.pow 128 (4 + 1)))
  have first := varintOf_take short (min shortLimit (span.held - span.position)) rest
  rw [← split] at first
  by_cases whole : (varint value).length ≤ min shortLimit (span.held - span.position)
  · rw [if_pos whole] at first
    refine ⟨span.advance (varint value).length, ?_, Span.leaves_of_drop split rfl rfl rfl⟩
    simp only [uint32, Span.atHand, first]
    exact if_pos fits
  · rw [if_neg whole] at first
    obtain ⟨final, read, leaves⟩ := takes_narrowed fits span sound split
    refine ⟨final, ?_, leaves⟩
    simp only [uint32, Span.atHand, first]
    exact read

/-- A signed number of 64 bits is read back from its low bits. -/
theorem takes_int64 (value : Int64) : Takes int64 (varint (lowBits value.toInt)) rest value := by
  have long : Takes int64 _ rest _ := (takes_uint64 (lowBits_lt value.toInt)).map UInt64.toInt64
  rwa [toInt64_lowBits, Int64.ofInt_toInt] at long

/-- A signed number of 32 bits is read back from its low bits. -/
theorem takes_int32 (value : Int32) : Takes int32 (varint (lowBits value.toInt)) rest value := by
  have long : Takes int64 _ rest _ := takes_int64 value.toInt64
  rw [Int32.toInt_toInt64] at long
  refine long.andThen ?_
  rw [Int32.toInt32_toInt64, if_pos rfl]
  exact takes_pure _

/-- A small number is written in the same way with and without a sign. -/
theorem takes_int32_ofNat {value : Nat} (fits : value < Nat.pow 2 31) :
    Takes int32 (varint value) rest (.ofNat value) := by
  have signed : Takes int32 _ rest _ := takes_int32 (.ofNat value)
  rwa [lowBits_ofNat fits] at signed

/-- A signed number is read back from its zigzag code. -/
theorem takes_sint64 {value : Int} (fits : FitsLong value) :
    Takes sint64 (varint (zigzagCode value)) rest (.ofInt value) := by
  rw [← zigzag_zigzagCode fits]
  exact (takes_uint64 (zigzagCode_lt fits)).map zigzag

/-- Every signed number of 64 bits is read back from its zigzag code. -/
theorem takes_sint64_toInt (value : Int64) :
    Takes sint64 (varint (zigzagCode value.toInt)) rest value := by
  have signed : Takes sint64 _ rest _ := takes_sint64 (fitsLong_toInt value)
  rwa [Int64.ofInt_toInt] at signed

end Numbers

section Contents

variable {rest : List UInt8}

/-- A content stands behind its length. -/
def measured (content : List UInt8) : List UInt8 := varint content.length ++ content

/-- Content of a declared length is taken. -/
theorem takes_take (content : List UInt8) (declared : WireFault) :
    Takes (take content.length declared) content rest content := by
  intro span sound split
  refine ⟨span.advanceAtOnce content.length, ?_, Span.leaves_of_drop split rfl rfl rfl⟩
  simp only [take, split, List.take_left, if_true]

/-- Content is not longer with its length before it. -/
theorem length_le_measured (content : List UInt8) : content.length ≤ (measured content).length := by
  rw [measured, List.length_append]
  exact Nat.le_add_left _ _

/-- Content with its length before it is read back. -/
theorem takes_bytes (content : List UInt8) : Takes bytes (measured content) rest content := by
  refine takes_of_short fun short => ?_
  have fits : content.length < Nat.pow 2 32 := Nat.lt_of_le_of_lt (length_le_measured content) short
  have same : content.length.toUInt32.toNat = content.length := by
    simpa using fits
  refine (takes_uint32 fits).bind ?_
  rw [same]
  exact takes_take content _

/-- A text with its length before it is read back. -/
theorem takes_text (content : String) :
    Takes text (measured (Text.bytes content)) rest content := by
  refine (takes_bytes (Text.bytes content)).andThen ?_
  rw [Text.fromUTF8?_bytes]
  exact takes_pure _

/-- The content of a nested message is a span of its own. -/
theorem nestedSpan_eq {span : Span} {content : List UInt8} (sound : span.IsSound)
    (split : span.bytes = content ++ rest) :
    nestedSpan content.length span = .ok { span with bytes := content, ending := .complete } := by
  have placed := sound.placed
  rw [split, List.length_append] at placed
  have inside : span.position + content.length ≤ lastPosition := by
    simp only [lastPosition, Nat.pow_eq] at placed ⊢
    omega
  simp only [nestedSpan, split, List.take_left, if_true]
  exact if_neg (Nat.not_lt.2 inside)

/-- A value inside its declared length ends where it should. -/
theorem takes_nested {Value : Type} {body : Reader Value} {content : List UInt8} {value : Value}
    (inner : Takes body content [] value) : Takes (nested body) (measured content) rest value := by
  intro span sound split
  have placed := sound.placed
  rw [split, measured, List.length_append, List.length_append] at placed
  have fits : content.length < Nat.pow 2 64 := by
    simp only [Nat.pow_eq] at placed ⊢
    omega
  have same : content.length.toUInt64.toNat = content.length := toNat_toUInt64 fits
  obtain ⟨middle, readLength, leaves⟩ :=
    takes_uint64 fits span sound (split.trans (List.append_assoc _ _ _))
  have middleSound := leaves.isSound sound
  obtain ⟨final, read, leavesInner⟩ := inner { middle with bytes := content, ending := .complete }
    ⟨middleSound.flawless, by
      have := middleSound.placed
      rw [leaves.bytes, List.length_append] at this
      exact Nat.lt_of_le_of_lt (Nat.add_le_add_left (Nat.le_add_right _ _) _) this⟩
    (List.append_nil content).symm
  refine ⟨{ final with
    bytes := middle.bytes.drop content.length, ending := middle.ending, depth := middle.depth },
    ?_, ?_, ?_, ?_⟩
  · rw [nested, bind_of_ok readLength]
    simp only [same, nestedSpan_eq middleSound leaves.bytes, read]
  · simp only [leaves.bytes, List.drop_left]
  · have inside := leavesInner.position
    have outside := leaves.position
    simp only [List.length_nil, List.length_append] at inside outside ⊢
    omega
  · exact leavesInner.source.trans leaves.source

end Contents

end Wire

end LightList.Pbf
