/-
This file says that the arithmetic of floats rounds the exact result once.

Products, quotients and sums of finite floats have the sign and the rounded size of the exact result,
as long as that is below the infinities.
-/

import LightList.Proofs.Decimal.FloatSizes

namespace LightList.Decimal

open Float.Model Float.Model.UnpackedFloat

/-- A float is rounded to itself. -/
theorem IsMantissa.roundsTo_self {mantissa : ℕ} {exponent : ℤ}
    (isMantissa : IsMantissa mantissa exponent) :
    RoundsTo (mantissa * 2 ^ exponent) (mantissa * 2 ^ exponent) := by
  have scale := two_zpow_pos exponent
  refine ⟨mantissa, exponent, ⟨isMantissa.lowest, lt_of_fits isMantissa.fits exponent, ?_⟩, ?_, rfl⟩
  · refine isMantissa.leading.imp_right fun leading => ?_
    calc
      (2 : ℚ) ^ (52 + exponent) = (2 ^ 52 : ℕ) * 2 ^ exponent := by rw [two_zpow_add]; norm_num
      _ ≤ mantissa * 2 ^ exponent := mul_le_mul_of_nonneg_right (Nat.cast_le.2 leading) scale.le
  · rw [mul_div_cancel_right₀ _ scale.ne']
    exact .ofStrict (by linarith) (by linarith)

theorem isMantissa_zero : IsMantissa 0 (-1074) := ⟨by decide, le_refl _, .inl rfl⟩

/-- A whole number of 53 bits is the size of a float. -/
theorem isFloatSize_of_lt {number : ℕ} (fits : number < 2 ^ 53) : IsFloatSize number := by
  by_cases isZero : number = 0
  · exact ⟨0, -1074, isMantissa_zero, by rw [isZero]; simp⟩
  · have bits : number.log2 < 53 := (Nat.log2_lt isZero).2 fits
    obtain ⟨count, total⟩ : ∃ count, number.log2 + count = 52 := ⟨52 - number.log2, by omega⟩
    have leading : 2 ^ 52 ≤ number * 2 ^ count := by
      rw [← total, Nat.pow_add]
      exact Nat.mul_le_mul_right _ (Nat.log2_self_le isZero)
    have short : number * 2 ^ count < 2 ^ 53 :=
      calc
        number * 2 ^ count < 2 ^ (number.log2 + 1) * 2 ^ count :=
          Nat.mul_lt_mul_of_pos_right Nat.lt_log2_self (Nat.two_pow_pos count)
        _ = 2 ^ 53 := by
          rw [← Nat.pow_add]
          congr 1
          omega
    refine ⟨number * 2 ^ count, -count, ⟨short, by omega, .inr leading⟩, ?_⟩
    rw [Nat.cast_mul, Nat.cast_pow, Nat.cast_ofNat, mul_assoc, zpow_neg, zpow_natCast,
      mul_inv_cancel₀ (by positivity), mul_one]

theorem isFloatSize_one : IsFloatSize 1 := by
  have whole := isFloatSize_of_lt (by decide : 1 < 2 ^ 53)
  rwa [Nat.cast_one] at whole

theorem roundsTo_zero : RoundsTo 0 0 := by
  simpa using isMantissa_zero.roundsTo_self

def signedSize (sign : Sign) (size : ℚ) : ℚ :=
  match sign with
  | .positive => size
  | .negative => -size

theorem signedSize_zero (sign : Sign) : signedSize sign 0 = 0 := by
  cases sign with
  | positive => rfl
  | negative => exact neg_zero

theorem abs_signedSize (sign : Sign) {size : ℚ} (nonneg : 0 ≤ size) : |signedSize sign size| = size := by
  cases sign with
  | positive => exact abs_of_nonneg nonneg
  | negative => exact (abs_neg size).trans (abs_of_nonneg nonneg)

namespace HasSize

variable {sign : Sign} {size : ℚ} {value : UnpackedFloat}

theorem nonneg (hasSize : HasSize sign size value) : 0 ≤ size := by
  cases value with
  | infinity _ => exact hasSize.elim
  | notANumber => exact hasSize.elim
  | zero _ => exact hasSize.2.ge
  | finite _ mantissa exponent _ => exact hasSize.2.2 ▸ size_nonneg mantissa exponent

/-- The size of a float is a mantissa at some exponent. -/
theorem isFloatSize (hasSize : HasSize sign size value) : IsFloatSize size := by
  cases value with
  | infinity _ => exact hasSize.elim
  | notANumber => exact hasSize.elim
  | zero _ => exact ⟨0, -1074, isMantissa_zero, by rw [hasSize.2]; simp⟩
  | finite _ mantissa exponent _ => exact ⟨mantissa, exponent, hasSize.2⟩

/-- The size of a float is rounded to itself. -/
theorem roundsTo_self (hasSize : HasSize sign size value) : RoundsTo size size := by
  obtain ⟨_, _, isMantissa, rfl⟩ := hasSize.isFloatSize
  exact isMantissa.roundsTo_self

end HasSize

section Unpacked

variable {first second : UnpackedFloat} {firstSign secondSign : Sign} {firstSize secondSize : ℚ}

/-- Negation turns the sign and keeps the size. -/
theorem hasSize_neg {sign : Sign} {size : ℚ} {value : UnpackedFloat}
    (hasSize : HasSize sign size value) : HasSize (-sign) size value.neg := by
  cases value with
  | infinity _ => exact hasSize.elim
  | notANumber => exact hasSize.elim
  | zero _ => exact ⟨congrArg (- ·) hasSize.1, hasSize.2⟩
  | finite _ _ _ _ => exact ⟨congrArg (- ·) hasSize.1, hasSize.2⟩

/-- Rounding a mantissa at any exponent gives the nearest size. -/
theorem hasSize_round (sign : Sign) (mantissa : ℕ) (nonzero : mantissa ≠ 0) (exponent : ℤ) :
    ∃ rounded, RoundsTo (mantissa * 2 ^ exponent) rounded ∧
      HasSize sign rounded (UnpackedFloat.round Format.binary64 sign mantissa exponent) := by
  unfold UnpackedFloat.round decreaseExponent
  dsimp only
  generalize isCount : (exponent - Format.binary64.targetExponent _).toNat = count
  have shifted : mantissa <<< count ≠ 0 := by
    rw [Nat.shiftLeft_eq]
    exact Nat.mul_ne_zero nonzero (Nat.two_pow_pos count).ne'
  have long : 52 ≤ (mantissa <<< count).log2 ∨ exponent - count ≤ -1074 := by
    rw [targetExponent_totalExponent] at isCount
    have bits : mantissa.log2 + count ≤ (mantissa <<< count).log2 := by
      rw [Nat.le_log2 shifted, Nat.shiftLeft_eq, Nat.pow_add]
      exact Nat.mul_le_mul_right _ (Nat.log2_self_le nonzero)
    omega
  have same : ((mantissa <<< count : ℕ) : ℚ) * 2 ^ (exponent - count) = mantissa * 2 ^ exponent := by
    rw [Nat.shiftLeft_eq, sub_eq_add_neg, two_zpow_add, zpow_neg, zpow_natCast]
    push_cast
    field_simp
  rw [← same]
  exact hasSize_roundWithAccuracy sign (.ofExact _) long

/-- A negative, an absent and a positive mantissa are told apart before they are rounded. -/
theorem hasSize_normalize (mantissa exponent : ℤ) (zeroSign : Sign) :
    ∃ sign rounded, RoundsTo (|(mantissa : ℚ)| * 2 ^ exponent) rounded ∧
      HasSize sign rounded
        (UnpackedFloat.normalize Format.binary64 mantissa exponent zeroSign) ∧
      (0 ≤ mantissa → zeroSign = .positive → sign = .positive) := by
  unfold UnpackedFloat.normalize
  split
  · next negative =>
      rw [Int.compare_eq_lt] at negative
      have size : |(mantissa : ℚ)| = ((-mantissa).toNat : ℕ) := by
        have natural : ((-mantissa).toNat : ℤ) = -mantissa := by omega
        rw [abs_of_neg (Int.cast_lt_zero.2 negative)]
        exact_mod_cast natural.symm
      rw [size]
      obtain ⟨rounded, rounds, hasSize⟩ := hasSize_round .negative (-mantissa).toNat (by omega) exponent
      exact ⟨_, rounded, rounds, hasSize, fun nonneg => by omega⟩
  · next isZero =>
      rw [Int.compare_eq_eq] at isZero
      rw [isZero, Int.cast_zero, abs_zero, zero_mul]
      exact ⟨_, 0, roundsTo_zero, ⟨rfl, rfl⟩, fun _ isPositive => isPositive⟩
  · next positive =>
      rw [Int.compare_eq_gt] at positive
      have size : |(mantissa : ℚ)| = (mantissa.toNat : ℕ) := by
        have natural : (mantissa.toNat : ℤ) = mantissa := by omega
        rw [abs_of_pos (Int.cast_pos.2 positive)]
        exact_mod_cast natural.symm
      rw [size]
      obtain ⟨rounded, rounds, hasSize⟩ := hasSize_round .positive mantissa.toNat (by omega) exponent
      exact ⟨_, rounded, rounds, hasSize, fun _ _ => rfl⟩

/-- The product of two mantissas is long enough, unless both are at the lowest exponent. -/
theorem long_mul {mantissa other : ℕ} {exponent power : ℤ} (first : IsMantissa mantissa exponent)
    (second : IsMantissa other power) (nonzero : mantissa * other ≠ 0) :
    52 ≤ (mantissa * other).log2 ∨ exponent + power ≤ -1074 := by
  have parts := Nat.mul_ne_zero_iff.1 nonzero
  rcases first.leading with lowest | leading
  · rcases second.leading with otherLowest | otherLeading
    · exact .inr (by omega)
    · exact .inl ((Nat.le_log2 nonzero).2
        (otherLeading.trans (Nat.le_mul_of_pos_left other (Nat.pos_of_ne_zero parts.1))))
  · exact .inl ((Nat.le_log2 nonzero).2
      (leading.trans (Nat.le_mul_of_pos_right mantissa (Nat.pos_of_ne_zero parts.2))))

/-- A product has the product of the signs and the rounded product of the sizes. -/
theorem hasSize_mul (firstSized : HasSize firstSign firstSize first)
    (secondSized : HasSize secondSign secondSize second) :
    ∃ rounded, RoundsTo (firstSize * secondSize) rounded ∧
      HasSize (firstSign * secondSign) rounded
        (UnpackedFloat.mul Format.binary64 first second) := by
  cases first with
  | infinity _ => exact firstSized.elim
  | notANumber => exact firstSized.elim
  | zero _ =>
      obtain ⟨rfl, rfl⟩ := firstSized
      rw [zero_mul]
      apply Exists.intro 0
      apply And.intro roundsTo_zero
      cases second with
      | infinity _ => exact secondSized.elim
      | notANumber => exact secondSized.elim
      | zero _ =>
          obtain ⟨rfl, _⟩ := secondSized
          exact ⟨rfl, rfl⟩
      | finite _ _ _ _ =>
          obtain ⟨rfl, _⟩ := secondSized
          exact ⟨rfl, rfl⟩
  | finite _ mantissa exponent some =>
      obtain ⟨rfl, isMantissa, rfl⟩ := firstSized
      cases second with
      | infinity _ => exact secondSized.elim
      | notANumber => exact secondSized.elim
      | zero _ =>
          obtain ⟨rfl, rfl⟩ := secondSized
          rw [mul_zero]
          exact ⟨0, roundsTo_zero, rfl, rfl⟩
      | finite _ other power otherSome =>
          obtain ⟨rfl, isOther, rfl⟩ := secondSized
          have same : (mantissa : ℚ) * 2 ^ exponent * (other * 2 ^ power) =
              (mantissa * other : ℕ) * 2 ^ (exponent + power) := by
            rw [two_zpow_add]
            push_cast
            ring
          rw [same]
          exact hasSize_roundWithAccuracy _ (.ofExact _)
            (long_mul isMantissa isOther (Nat.mul_pos some otherSome).ne')

/-- The first mantissa is shifted until the quotient is long enough. -/
theorem hasSize_divCore (sign : Sign) {mantissa other : ℕ} (exponent power : ℤ)
    (nonzero : mantissa ≠ 0) (positive : 0 < other) :
    let core := divCore Format.binary64 mantissa exponent other power
    ∃ rounded, RoundsTo (mantissa * 2 ^ exponent / (other * 2 ^ power)) rounded ∧
      HasSize sign rounded
        (roundWithAccuracy Format.binary64 sign core.1 core.2.1 core.2.2) := by
  intro core
  obtain ⟨target, isTarget⟩ : ∃ target, target = min (exponent - power)
      (Format.binary64.targetExponent
        (totalExponent mantissa exponent - totalExponent other power)) := ⟨_, rfl⟩
  obtain ⟨count, isCount⟩ : ∃ count, count = (exponent - power - target).toNat := ⟨_, rfl⟩
  have opened : core = (mantissa <<< count / other, target,
      accuracyOfFraction (mantissa <<< count % other) other) := by
    rw [isCount, isTarget]
    rfl
  have aimed : target = min (exponent - power)
      (max (mantissa.log2 + exponent - (other.log2 + power) - 53) (-1074)) := by
    rw [isTarget]
    simp only [Format.targetExponent, totalExponent, Format.mantissaBits, Format.minExponent]
    omega
  have long : 52 ≤ (mantissa <<< count / other).log2 ∨ target ≤ -1074 := by
    by_cases low : target ≤ -1074
    · exact .inr low
    · apply Or.inl
      have bits : 52 + (other.log2 + 1) ≤ mantissa.log2 + count := by omega
      have large : 2 ^ 52 ≤ mantissa <<< count / other := by
        rw [Nat.le_div_iff_mul_le positive, Nat.shiftLeft_eq]
        calc
          2 ^ 52 * other ≤ 2 ^ 52 * 2 ^ (other.log2 + 1) :=
            Nat.mul_le_mul_left _ Nat.lt_log2_self.le
          _ = 2 ^ (52 + (other.log2 + 1)) := (Nat.pow_add ..).symm
          _ ≤ 2 ^ (mantissa.log2 + count) := Nat.pow_le_pow_right (by decide) bits
          _ = 2 ^ mantissa.log2 * 2 ^ count := Nat.pow_add ..
          _ ≤ mantissa * 2 ^ count := Nat.mul_le_mul_right _ (Nat.log2_self_le nonzero)
      exact (Nat.le_log2 (by omega)).2 large
  have shift : exponent = (count : ℤ) + target + power := by omega
  have same : (mantissa : ℚ) * 2 ^ exponent / (other * 2 ^ power) =
      ((mantissa <<< count : ℕ) / other) * 2 ^ target := by
    have scale := (two_zpow_pos power).ne'
    have divisor : (other : ℚ) ≠ 0 := Nat.cast_ne_zero.2 positive.ne'
    rw [Nat.shiftLeft_eq, shift, two_zpow_add, two_zpow_add, zpow_natCast]
    push_cast
    field_simp
  rw [same, opened]
  exact hasSize_roundWithAccuracy sign (.ofFraction _ positive) long

/-- A quotient has the product of the signs and the rounded quotient of the sizes. -/
theorem hasSize_div (firstSized : HasSize firstSign firstSize first)
    (secondSized : HasSize secondSign secondSize second) (nonzero : secondSize ≠ 0) :
    ∃ rounded, RoundsTo (firstSize / secondSize) rounded ∧
      HasSize (firstSign / secondSign) rounded
        (UnpackedFloat.div Format.binary64 first second) := by
  cases second with
  | infinity _ => exact secondSized.elim
  | notANumber => exact secondSized.elim
  | zero _ => exact (nonzero secondSized.2).elim
  | finite _ other power otherSome =>
      obtain ⟨rfl, isOther, rfl⟩ := secondSized
      cases first with
      | infinity _ => exact firstSized.elim
      | notANumber => exact firstSized.elim
      | zero _ =>
          obtain ⟨rfl, rfl⟩ := firstSized
          rw [zero_div]
          exact ⟨0, roundsTo_zero, rfl, rfl⟩
      | finite _ mantissa exponent some =>
          obtain ⟨rfl, _, rfl⟩ := firstSized
          exact hasSize_divCore _ exponent power some.ne' otherSome

/-- A mantissa that is brought to a lower exponent keeps its signed value. -/
theorem signedSize_shiftLeft (sign : Sign) (mantissa : ℕ) {exponent lower : ℤ} (below : lower ≤ exponent) :
    ((sign.apply (mantissa <<< (exponent - lower).toNat : ℕ) : ℤ) : ℚ) * 2 ^ lower =
      signedSize sign (mantissa * 2 ^ exponent) := by
  obtain ⟨count, isCount⟩ := Int.exists_add_of_le below
  have shifted : ((mantissa <<< count : ℕ) : ℚ) * 2 ^ lower = mantissa * 2 ^ exponent := by
    rw [isCount, two_zpow_add, zpow_natCast, Nat.shiftLeft_eq]
    push_cast
    ring
  have difference : (exponent - lower).toNat = count := by omega
  rw [difference, ← shifted]
  cases sign with
  | positive => exact congrArg (· * _) (Int.cast_natCast _)
  | negative =>
      change ((-((mantissa <<< count : ℕ) : ℤ) : ℤ) : ℚ) * _ = -(((mantissa <<< count : ℕ) : ℚ) * _)
      rw [Int.cast_neg, Int.cast_natCast, neg_mul]

/-- A sum has the rounded size of the exact sum. -/
theorem hasSize_add (firstSized : HasSize firstSign firstSize first)
    (secondSized : HasSize secondSign secondSize second) :
    ∃ sign rounded, RoundsTo |signedSize firstSign firstSize + signedSize secondSign secondSize| rounded ∧
      HasSize sign rounded (UnpackedFloat.add Format.binary64 first second) := by
  cases first with
  | infinity _ => exact firstSized.elim
  | notANumber => exact firstSized.elim
  | zero zeroSign =>
      obtain ⟨_, rfl⟩ := firstSized
      rw [signedSize_zero, zero_add, abs_signedSize _ secondSized.nonneg]
      cases second with
      | infinity _ => exact secondSized.elim
      | notANumber => exact secondSized.elim
      | zero other =>
          obtain ⟨_, rfl⟩ := secondSized
          have isZero : ∃ sign, UnpackedFloat.add Format.binary64 (.zero zeroSign) (.zero other) =
              .zero sign := by
            unfold UnpackedFloat.add
            dsimp only
            split
            · exact ⟨_, rfl⟩
            · exact ⟨_, rfl⟩
          obtain ⟨sign, isZero⟩ := isZero
          rw [isZero]
          exact ⟨sign, 0, roundsTo_zero, rfl, rfl⟩
      | finite _ _ _ _ => exact ⟨_, _, secondSized.roundsTo_self, secondSized⟩
  | finite _ mantissa exponent some =>
      obtain ⟨rfl, isMantissa, rfl⟩ := firstSized
      cases second with
      | infinity _ => exact secondSized.elim
      | notANumber => exact secondSized.elim
      | zero _ =>
          obtain ⟨rfl, rfl⟩ := secondSized
          rw [signedSize_zero, add_zero, abs_signedSize _ (size_nonneg mantissa exponent)]
          exact ⟨_, _, isMantissa.roundsTo_self, rfl, isMantissa, rfl⟩
      | finite _ other power otherSome =>
          obtain ⟨rfl, isOther, rfl⟩ := secondSized
          rw [← signedSize_shiftLeft _ mantissa (min_le_left exponent power),
            ← signedSize_shiftLeft _ other (min_le_right exponent power), ← add_mul, abs_mul,
            abs_of_pos (two_zpow_pos _), ← Int.cast_add]
          obtain ⟨sign, rounded, rounds, hasSize, _⟩ := hasSize_normalize _ _ _
          exact ⟨sign, rounded, rounds, hasSize⟩

end Unpacked

section Floats

variable {first second : Float} {firstSign secondSign : Sign} {firstSize secondSize : ℚ}

/-- The float has this sign and size, or it is an infinity if the size is too large. -/
structure IsPacked (sign : Sign) (size : ℚ) (value : Float) : Prop where
  sized : size < 2 ^ (1024 : ℤ) → IsSized sign size value
  infinite : 2 ^ (1024 : ℤ) ≤ size → value.toModel.unpack = .infinity sign

/-- Packing keeps the size, and a size that is too large becomes an infinity. -/
theorem HasSize.isPacked {sign : Sign} {size : ℚ} {value : UnpackedFloat}
    (hasSize : HasSize sign size value) : IsPacked sign size (.ofModel (.pack value)) where
  sized small := ⟨by rw [unpack_pack hasSize small]; exact hasSize, small⟩
  infinite large := unpack_pack_of_large hasSize large

/-- An integer of 64 bits becomes the float nearest to it. -/
theorem exists_toFloat (number : UInt64) :
    ∃ rounded, RoundsTo number.toNat rounded ∧ IsSized .positive rounded number.toFloat := by
  obtain ⟨sign, rounded, rounds, hasSize, positive⟩ := hasSize_normalize number.toNat 0 .positive
  rw [positive (Int.natCast_nonneg _) rfl] at hasSize
  rw [Int.cast_natCast, Nat.abs_cast, zpow_zero, mul_one] at rounds
  have isMantissa : IsMantissa (2 ^ 52) 12 := ⟨by decide, by decide, .inr (le_refl _)⟩
  have below : (number.toNat : ℚ) ≤ (2 ^ 52 : ℕ) * 2 ^ (12 : ℤ) := by
    have fits : number.toNat ≤ 2 ^ 64 := number.toNat_lt.le
    exact_mod_cast fits
  have small : rounded < 2 ^ (1024 : ℤ) :=
    (rounds.le_of_le isMantissa below).trans_lt (lt_of_highest (by decide) (by decide))
  exact ⟨rounded, rounds, hasSize.isPacked.sized small⟩

/-- Negation turns the sign of a float and keeps its size. -/
theorem IsSized.neg {sign : Sign} {size : ℚ} {value : Float} (sized : IsSized sign size value) :
    IsSized (-sign) size (-value) :=
  (hasSize_neg sized.hasSize).isPacked.sized sized.small

/-- The product of two floats is the rounded product, or an infinity. -/
theorem exists_mul (firstSized : IsSized firstSign firstSize first)
    (secondSized : IsSized secondSign secondSize second) :
    ∃ rounded, RoundsTo (firstSize * secondSize) rounded ∧
      IsPacked (firstSign * secondSign) rounded (first * second) := by
  obtain ⟨rounded, rounds, hasSize⟩ := hasSize_mul firstSized.hasSize secondSized.hasSize
  exact ⟨rounded, rounds, hasSize.isPacked⟩

/-- The quotient of two floats is the rounded quotient, or an infinity. -/
theorem exists_div (firstSized : IsSized firstSign firstSize first)
    (secondSized : IsSized secondSign secondSize second) (nonzero : secondSize ≠ 0) :
    ∃ rounded, RoundsTo (firstSize / secondSize) rounded ∧
      IsPacked (firstSign / secondSign) rounded (first / second) := by
  obtain ⟨rounded, rounds, hasSize⟩ := hasSize_div firstSized.hasSize secondSized.hasSize nonzero
  exact ⟨rounded, rounds, hasSize.isPacked⟩

/-- The sum of two floats is the rounded sum, or an infinity. -/
theorem exists_add (firstSized : IsSized firstSign firstSize first)
    (secondSized : IsSized secondSign secondSize second) :
    ∃ sign rounded,
      RoundsTo |signedSize firstSign firstSize + signedSize secondSign secondSize| rounded ∧
        IsPacked sign rounded (first + second) := by
  obtain ⟨sign, rounded, rounds, hasSize⟩ := hasSize_add firstSized.hasSize secondSized.hasSize
  exact ⟨sign, rounded, rounds, hasSize.isPacked⟩

end Floats

end LightList.Decimal
