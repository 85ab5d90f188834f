/-
This file says that a reader needs all of what was written: it gives no other value for it, and a
part of it is refused.

A number may be spelled with more bytes than it needs. Whether it is then accepted depends on what
is at hand, so nothing is said here of whether a reader succeeds.
-/

import LightList.Proofs.Pbf.Fields

namespace LightList.Pbf

/-- What is kept of two parts has all of the first one, or it ends inside of that one. -/
theorem exists_kept_or_lost {front back kept missing : List UInt8}
    (split : front ++ back = kept ++ missing) :
    (∃ more, kept = front ++ more ∧ back = more ++ missing) ∨
      ∃ lost, lost ≠ [] ∧ front = kept ++ lost := by
  rcases List.append_eq_append_iff.1 split with ⟨more, both⟩ | ⟨lost, part, behind⟩
  · exact .inl ⟨more, both⟩
  · by_cases whole : lost = []
    · rw [whole, List.append_nil] at part
      rw [whole, List.nil_append] at behind
      exact .inl ⟨[], by rw [part, List.append_nil], behind.symm⟩
    · exact .inr ⟨lost, whole, part⟩

/-- Each byte holds seven bits, the lowest first, and the last ones may all be zero. -/
inductive IsVarint : Nat → List UInt8 → Prop where
  | last {byte : UInt8} : byte < 0x80 → IsVarint byte.toNat [byte]
  | more {byte : UInt8} {value : Nat} {rest : List UInt8} : ¬ byte < 0x80 → IsVarint value rest →
      IsVarint (byte.toNat - 128 + 128 * value) (byte :: rest)

namespace IsVarint

variable {value limit : Nat} {written : List UInt8}

/-- What follows a varint does not change what it is read as. -/
theorem eq_of_varintOf (isVarint : IsVarint value written) {rest : List UInt8} {found : Nat × Nat}
    (read : Wire.varintOf limit (written ++ rest) = .ok found) :
    found = (value, written.length) := by
  induction isVarint generalizing limit found with
  | last small =>
      cases limit with
      | zero => cases read
      | succ limit =>
          simp only [List.singleton_append, Wire.varintOf, if_pos small] at read
          cases read
          rfl
  | more marked _ inductionHypothesis =>
      cases limit with
      | zero => cases read
      | succ limit =>
          simp only [List.cons_append, Wire.varintOf, if_neg marked] at read
          split at read
          · cases read
          · next later =>
              cases read
              cases inductionHypothesis later
              rfl

/-- A varint that is cut off has no value. -/
theorem exists_flaw (isVarint : IsVarint value written) {front missing : List UInt8}
    (split : written = front ++ missing) (cut : missing ≠ []) (limit : Nat) :
    ∃ flaw, Wire.varintOf limit front = .error flaw := by
  induction isVarint generalizing limit front with
  | last small =>
      cases front with
      | nil => cases limit <;> exact ⟨_, rfl⟩
      | cons byte front =>
          cases List.append_eq_nil_iff.1 (List.cons.inj split).2.symm |>.2
          exact absurd rfl cut
  | more marked _ inductionHypothesis =>
      cases front with
      | nil => cases limit <;> exact ⟨_, rfl⟩
      | cons byte front =>
          obtain ⟨rfl, further⟩ := List.cons.inj split
          cases limit with
          | zero => exact ⟨_, rfl⟩
          | succ limit =>
              obtain ⟨flaw, later⟩ := inductionHypothesis further limit
              exact ⟨flaw, by rw [Wire.varintOf, if_neg marked, later]⟩

/-- The first bytes have no other value, however many they are. -/
theorem eq_of_varintOf_take (isVarint : IsVarint value written) {rest : List UInt8} {count : Nat}
    {found : Nat × Nat} (read : Wire.varintOf limit ((written ++ rest).take count) = .ok found) :
    found = (value, written.length) := by
  rw [List.take_append] at read
  by_cases whole : written.length ≤ count
  · rw [List.take_of_length_le whole] at read
    exact isVarint.eq_of_varintOf read
  · have none : count - written.length = 0 := by omega
    rw [none, List.take_zero, List.append_nil] at read
    have cut : written.drop count ≠ [] := by
      rw [Ne, List.drop_eq_nil_iff]
      exact whole
    obtain ⟨flaw, failed⟩ :=
      isVarint.exists_flaw (List.take_append_drop count written).symm cut limit
    rw [failed] at read
    cases read

theorem append_ne_nil (isVarint : IsVarint value written) (rest : List UInt8) :
    written ++ rest ≠ [] := by
  cases isVarint <;> exact List.cons_ne_nil _ _

end IsVarint

/-- The shortest form of a number is one of its forms. -/
theorem isVarint_varint (value : Nat) : IsVarint value (varint value) := by
  induction value using Nat.strongRecOn with
  | ind value inductionHypothesis =>
      by_cases short : value < 128
      · have isLast : value.toUInt8 < 0x80 := by
          rw [UInt8.lt_iff_toNat_lt]
          simp
          omega
        have same : value.toUInt8.toNat = value := by
          simp
          omega
        have last := IsVarint.last isLast
        rwa [same, ← varint_short short] at last
      · have notLast : ¬ (value % 128 + 128).toUInt8 < 0x80 := by
          rw [UInt8.lt_iff_toNat_lt]
          simp
          omega
        have same : (value % 128 + 128).toUInt8.toNat - 128 + 128 * (value / 128) = value := by
          simp
          omega
        have more := IsVarint.more notLast (inductionHypothesis (value / 128) (by omega))
        rwa [same, ← varint_long (Nat.not_lt.1 short)] at more

namespace Wire

/-- The reader fails where the bytes are only a part of what was written. -/
def RefusesParts {Value : Type} (reader : Reader Value) (written : List UInt8) : Prop :=
  ∀ (span : Span) (missing : List UInt8), span.IsSound → written = span.bytes ++ missing →
    missing ≠ [] → ∃ fault, reader span = .error fault

/-- If the reader succeeds on what was written, it takes all of it and gives the value. -/
structure Needs {Value : Type} (reader : Reader Value) (written : List UInt8) (value : Value) :
    Prop where
  whole {span final : Span} {rest : List UInt8} {result : Value} : span.IsSound →
    span.bytes = written ++ rest → reader span = .ok (result, final) →
      result = value ∧ span.Leaves rest final
  part : RefusesParts reader written

section Sequences

variable {First Second : Type} {front back : List UInt8}

theorem bind_of_error {reader : Reader First} {next : First → Reader Second} {span : Span}
    {fault : WireFault} (failed : reader span = .error fault) :
    (reader >>= next) span = .error fault := by
  change (reader span >>= fun pair => next pair.1 pair.2) = _
  rw [failed]
  rfl

/-- Both readers succeed when the whole does. -/
theorem exists_of_bind {reader : Reader First} {next : First → Reader Second} {span final : Span}
    {result : Second} (succeeded : (reader >>= next) span = .ok (result, final)) :
    ∃ value middle, reader span = .ok (value, middle) ∧
      next value middle = .ok (result, final) := by
  cases read : reader span with
  | error fault =>
      rw [bind_of_error read] at succeeded
      cases succeeded
  | ok pair =>
      rw [bind_of_ok read] at succeeded
      exact ⟨pair.1, pair.2, rfl, succeeded⟩

/-- A cut falls into the first part, or it leaves the first part whole. -/
theorem Needs.bind {reader : Reader First} {next : First → Reader Second} {value : First}
    {result : Second} (one : Needs reader front value) (other : Needs (next value) back result) :
    Needs (reader >>= next) (front ++ back) result := by
  constructor
  · intro span final rest found sound split succeeded
    rw [List.append_assoc] at split
    obtain ⟨first, middle, read, readOn⟩ := exists_of_bind succeeded
    obtain ⟨rfl, leaves⟩ := one.whole sound split read
    obtain ⟨same, leavesOn⟩ := other.whole (leaves.isSound sound) leaves.bytes readOn
    exact ⟨same, leaves.trans leavesOn⟩
  · intro span missing sound split cut
    rcases exists_kept_or_lost split with ⟨more, bytes, part⟩ | ⟨lost, some, part⟩
    · cases read : reader span with
      | error fault => exact ⟨fault, bind_of_error read⟩
      | ok pair =>
          obtain ⟨isValue, leaves⟩ := one.whole sound bytes read
          rw [bind_of_ok read, isValue]
          rw [← leaves.bytes] at part
          exact other.part pair.2 missing (leaves.isSound sound) part cut
    · obtain ⟨fault, failed⟩ := one.part span lost sound part some
      exact ⟨fault, bind_of_error failed⟩

theorem needs_pure (value : First) : Needs (pure value) [] value := by
  constructor
  · intro span final rest result sound split succeeded
    cases succeeded
    exact ⟨rfl, split, by rw [split, List.nil_append], rfl⟩
  · intro span missing sound split cut
    exact absurd (List.append_eq_nil_iff.1 split.symm).2 cut

/-- A reader that takes nothing may follow. -/
theorem Needs.andThen {reader : Reader First} {next : First → Reader Second} {value : First}
    {result : Second} (one : Needs reader front value) (other : Needs (next value) [] result) :
    Needs (reader >>= next) front result := by
  have both : Needs (reader >>= next) (front ++ []) result := one.bind other
  rwa [List.append_nil] at both

/-- A change of the value leaves the bytes as they are. -/
theorem Needs.map {reader : Reader First} {value : First} (change : First → Second)
    (one : Needs reader front value) :
    Needs (reader >>= fun value => pure (change value)) front (change value) :=
  one.andThen (needs_pure (change value))

end Sequences

section Values

variable {value : Nat} {written : List UInt8}

/-- A number of 64 bits is taken as a whole. -/
theorem needs_uint64 (isVarint : IsVarint value written) :
    Needs uint64 written value.toUInt64 := by
  constructor
  · intro span final rest result sound split succeeded
    unfold uint64 at succeeded
    rw [split] at succeeded
    split at succeeded
    · cases succeeded
    · cases succeeded
    · next read =>
        cases isVarint.eq_of_varintOf read
        split at succeeded
        · cases succeeded
          exact ⟨rfl, Span.leaves_of_drop split rfl rfl rfl⟩
        · cases succeeded
  · intro span missing sound split cut
    obtain ⟨flaw, failed⟩ := isVarint.exists_flaw split cut longLimit
    unfold uint64
    rw [failed]
    cases flaw <;> exact ⟨_, rfl⟩

/-- A number of 32 bits is taken as a whole. -/
theorem needs_narrowed (isVarint : IsVarint value written) :
    Needs narrowed written value.toUInt32 := by
  constructor
  · intro span final rest result sound split succeeded
    obtain ⟨long, middle, read, readOn⟩ := exists_of_bind succeeded
    obtain ⟨rfl, leaves⟩ := (needs_uint64 isVarint).whole sound split read
    split at readOn
    · cases readOn
      refine ⟨?_, leaves⟩
      apply UInt32.toNat_inj.1
      simp
    · cases readOn
  · intro span missing sound split cut
    obtain ⟨fault, failed⟩ := (needs_uint64 isVarint).part span missing sound split cut
    exact ⟨fault, bind_of_error failed⟩

/-- What is at hand may end inside of the number, and then all of it is read as a long one. -/
theorem needs_uint32 (isVarint : IsVarint value written) :
    Needs uint32 written value.toUInt32 := by
  constructor
  · intro span final rest result sound split succeeded
    unfold uint32 at succeeded
    dsimp only at succeeded
    split at succeeded
    · next found length read =>
        rw [Span.atHand, split] at read
        cases isVarint.eq_of_varintOf_take read
        split at succeeded
        · cases succeeded
          exact ⟨rfl, Span.leaves_of_drop split rfl rfl rfl⟩
        · cases succeeded
    · cases succeeded
    · exact (needs_narrowed isVarint).whole sound split succeeded
  · intro span missing sound split cut
    have atHand : written = span.atHand shortLimit ++
        (span.bytes.drop (min shortLimit (span.held - span.position)) ++ missing) := by
      rw [Span.atHand, ← List.append_assoc, List.take_append_drop, split]
    obtain ⟨flaw, failed⟩ := isVarint.exists_flaw atHand
      (List.append_ne_nil_of_right_ne_nil _ cut) shortLimit
    unfold uint32
    dsimp only
    rw [failed]
    cases flaw with
    | unfinished => exact (needs_narrowed isVarint).part span missing sound split cut
    | tooLong => exact ⟨_, rfl⟩

/-- A signed number of 32 bits is taken as a whole. -/
theorem needs_int32 (isVarint : IsVarint value written) (fits : value < Nat.pow 2 31) :
    Needs int32 written (.ofNat value) := by
  have long : Needs int64 written _ := (needs_uint64 isVarint).map UInt64.toInt64
  have same : value.toUInt64.toInt64 = (Int32.ofNat value).toInt64 := by
    rw [← Int64.ofInt_toInt (Int32.ofNat value).toInt64, Int32.toInt_toInt64, ← toInt64_lowBits,
      lowBits_ofNat fits]
  rw [same] at long
  refine long.andThen ?_
  rw [Int32.toInt32_toInt64, if_pos rfl]
  exact needs_pure _

/-- A tag is taken as a whole. -/
theorem needs_tag {number wireType : Nat} (isVarint : IsVarint (number * 8 + wireType) written)
    (positive : 0 < number) (short : number < Nat.pow 2 29) (known : wireType ≤ 5) :
    Needs tag written ⟨number, wireType⟩ := by
  simp only [Nat.pow_eq] at short
  have same : (number * 8 + wireType).toUInt32.toNat = number * 8 + wireType := by
    simp
    omega
  have numberOf : (number * 8 + wireType) / 8 = number := by omega
  have wireTypeOf : (number * 8 + wireType) % 8 = wireType := by omega
  refine (needs_uint32 isVarint).andThen ?_
  dsimp only
  rw [same, numberOf, wireTypeOf, if_neg (by omega)]
  exact needs_pure _

end Values

section Contents

/-- Content of a declared length is taken as a whole. -/
theorem needs_take (content : List UInt8) (declared : WireFault) :
    Needs (take content.length declared) content content := by
  constructor
  · intro span final rest result sound split succeeded
    simp only [take, split, List.take_left, if_true] at succeeded
    cases succeeded
    exact ⟨rfl, Span.leaves_of_drop split rfl rfl rfl⟩
  · intro span missing sound split cut
    have short : (span.bytes.take content.length).length ≠ content.length := by
      have positive := List.length_pos_iff.2 cut
      rw [split, List.length_take, List.length_append]
      omega
    simp only [take, if_neg short]
    split <;> exact ⟨_, rfl⟩

/-- Content with its length before it is taken as a whole. -/
theorem needs_bytes {content written : List UInt8} (isVarint : IsVarint content.length written)
    (fits : content.length < Nat.pow 2 32) : Needs bytes (written ++ content) content := by
  have same : content.length.toUInt32.toNat = content.length := by
    simpa using fits
  refine (needs_uint32 isVarint).bind ?_
  rw [same]
  exact needs_take content _

/-- A text with its length before it is taken as a whole. -/
theorem needs_text {content : String} {written : List UInt8}
    (isVarint : IsVarint (Text.bytes content).length written)
    (fits : (Text.bytes content).length < Nat.pow 2 32) :
    Needs text (written ++ Text.bytes content) content := by
  refine (needs_bytes isVarint fits).andThen ?_
  rw [Text.fromUTF8?_bytes]
  exact needs_pure _

end Contents

section Rows

variable {State : Type} {field : State → Tag → Reader State} {unfinished : State → Prop}

/-- The fields lead from one state to another, and no state before the last one is finished. -/
inductive Row (field : State → Tag → Reader State) (unfinished : State → Prop) :
    State → List UInt8 → State → Prop where
  | done (state : State) : Row field unfinished state [] state
  | next {state middle last : State} {written rest : List UInt8} :
      unfinished state → written ≠ [] → Needs (tag >>= field state) written middle →
        Row field unfinished middle rest last → Row field unfinished state (written ++ rest) last

/-- Where no bytes are left there are no fields. -/
theorem fieldsWithin_of_nil {span : Span} (sound : span.IsSound) (none : span.bytes = [])
    (bound : List UInt8) (state : State) :
    fieldsWithin field bound state span = .ok (state, span) := by
  have ended : atEnd span = .ok (true, span) := by
    unfold atEnd
    rw [none, sound.flawless]
    cases span.ending <;> rfl
  cases bound with
  | nil => exact bind_of_ok ended
  | cons byte bound => exact bind_of_ok ended

/-- Where there are bytes, a field is read first. -/
theorem fieldsWithin_of_ne_nil {span : Span} (some : span.bytes ≠ []) (byte : UInt8)
    (bound : List UInt8) (state : State) :
    fieldsWithin field (byte :: bound) state span =
      ((tag >>= field state) >>= fieldsWithin field bound) span := by
  have notEnded : atEnd span = .ok (false, span) := by
    unfold atEnd
    rw [List.isEmpty_eq_false_iff.2 some]
    rfl
  refine (bind_of_ok notEnded).trans ?_
  rw [if_neg Bool.false_ne_true]
  exact congrFun (bind_assoc tag (field state) _).symm span

/-- The bytes bound the loop, since no field is empty. -/
theorem Row.fieldsWithin_whole {state last result : State} {written : List UInt8}
    (row : Row field unfinished state written last) {bound : List UInt8} {span final : Span}
    (sound : span.IsSound) (split : span.bytes = written) (enough : written.length ≤ bound.length)
    (succeeded : fieldsWithin field bound state span = .ok (result, final)) : result = last := by
  induction row generalizing bound span with
  | done state =>
      rw [fieldsWithin_of_nil sound split] at succeeded
      cases succeeded
      rfl
  | @next state middle last written rest _ some needs _ inductionHypothesis =>
      have positive := List.length_pos_iff.2 some
      rw [List.length_append] at enough
      cases bound with
      | nil =>
          rw [List.length_nil] at enough
          omega
      | cons byte bound =>
          have bytes : span.bytes ≠ [] := by
            rw [split]
            exact List.append_ne_nil_of_left_ne_nil some _
          rw [fieldsWithin_of_ne_nil bytes] at succeeded
          obtain ⟨value, middle, read, readOn⟩ := exists_of_bind succeeded
          obtain ⟨rfl, leaves⟩ := needs.whole sound split read
          refine inductionHypothesis (leaves.isSound sound) leaves.bytes ?_ readOn
          rw [List.length_cons] at enough
          omega

/-- Where the row is cut between two fields, the state so far is what is read. -/
theorem Row.fieldsWithin_part {state last result : State} {written missing : List UInt8}
    (row : Row field unfinished state written last) {bound : List UInt8} {span final : Span}
    (sound : span.IsSound) (split : written = span.bytes ++ missing) (cut : missing ≠ [])
    (enough : span.bytes.length ≤ bound.length)
    (succeeded : fieldsWithin field bound state span = .ok (result, final)) :
    unfinished result := by
  induction row generalizing bound span with
  | done state => exact absurd (List.append_eq_nil_iff.1 split.symm).2 cut
  | @next state middle last written rest isUnfinished some needs _ inductionHypothesis =>
      by_cases none : span.bytes = []
      · rw [fieldsWithin_of_nil sound none] at succeeded
        cases succeeded
        exact isUnfinished
      · cases bound with
        | nil => exact absurd (List.length_eq_zero_iff.1 (Nat.le_zero.1 enough)) none
        | cons byte bound =>
            rw [fieldsWithin_of_ne_nil none] at succeeded
            obtain ⟨value, after, read, readOn⟩ := exists_of_bind succeeded
            rcases exists_kept_or_lost split with ⟨more, bytes, part⟩ | ⟨lost, others, part⟩
            · obtain ⟨rfl, leaves⟩ := needs.whole sound bytes read
              rw [← leaves.bytes] at part
              refine inductionHypothesis (leaves.isSound sound) part ?_ readOn
              have positive := List.length_pos_iff.2 some
              rw [bytes, List.length_append, List.length_cons] at enough
              rw [leaves.bytes]
              omega
            · obtain ⟨fault, failed⟩ := needs.part span lost sound part others
              rw [failed] at read
              cases read

end Rows

end Wire

end LightList.Pbf
