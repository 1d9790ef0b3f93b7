import Formula.Proofs.Scalar.Literal

namespace Formula

open Float.Model Float.Model.UnpackedFloat

/-! The texts of whole numbers.

A whole number is written as an integer if it is small, and its digits are read as that number:
every integer of so few bits is a number of the format, and rounding leaves such a number as it is.
So a constant is read back if its plain text is.
-/

namespace Decimal

variable {whole : Nat}

theorem readDigits_toDigits (whole : Nat) : readDigits (Nat.toDigits 10 whole) = whole := by
  rw [readDigits, ← Nat.ofDigitChars_eq_foldl, Nat.ofDigitChars_ten_toDigits]

theorem ofText?_toDigits (whole : Nat) : ofText? (Nat.toDigits 10 whole) = some ⟨whole, 0⟩ := by
  have isDigit : ∀ character ∈ Nat.toDigits 10 whole, character.isDigit = true :=
    fun character member => Nat.isDigit_of_mem_toDigits (by decide) (by decide) member
  have taken := List.takeWhile_eq_self_iff.mpr isDigit
  have rest := List.dropWhile_eq_nil_iff.mpr isDigit
  simp [ofText?, taken, rest, splitFraction, readExponent?, Nat.toDigits_ne_nil, readDigits_toDigits]

/-- A number of few digits is neither too large nor too small for the format. -/
theorem toFloat_eq_ofScientific (nonzero : whole ≠ 0) (small : whole < Numeral.integerTextBound) :
    toFloat ⟨whole, 0⟩ = Float.ofScientific whole false 0 := by
  have some : 0 < (Nat.toDigits 10 whole).length := Nat.length_toDigits_pos
  have few : (Nat.toDigits 10 whole).length ≤ 10 :=
    (Nat.length_toDigits_le_iff (by decide) (by decide)).mpr small
  have below : ¬ overflowExponent < leadingExponent ⟨whole, 0⟩ := by
    simp only [overflowExponent, leadingExponent, digits]
    omega
  have above : ¬ leadingExponent ⟨whole, 0⟩ < underflowExponent := by
    simp only [underflowExponent, leadingExponent, digits]
    omega
  rw [toFloat, if_neg nonzero, if_neg below, if_neg above]
  rfl

end Decimal

namespace Numeral

section

variable {format : Format} {sign : Sign} {significand : Nat} {exponent : Int}

/-- The significand has all bits of the format, or the exponent is the least one. -/
def IsCanonical (format : Format) (significand : Nat) (exponent : Int) : Prop :=
  format.targetExponent (totalExponent significand exponent) = exponent

theorem log2_mul_pow (positive : 0 < significand) (shift : Nat) :
    (significand * 2 ^ shift).log2 = significand.log2 + shift := by
  induction shift with
  | zero => rw [Nat.pow_zero, Nat.mul_one, Nat.add_zero]
  | succ shift ih =>
      have doubled : significand * 2 ^ (shift + 1) = 2 * (significand * 2 ^ shift) := by ring
      rw [doubled, Nat.log2_two_mul (by positivity), ih, Nat.add_assoc]

theorem totalExponent_mul_pow (positive : 0 < significand) (exponent : Int) (shift : Nat) :
    totalExponent (significand * 2 ^ shift) (exponent - shift) =
      totalExponent significand exponent := by
  rw [totalExponent, totalExponent, log2_mul_pow positive]
  omega

/-- Zeros that are shifted out leave nothing to round. -/
theorem shiftRight_exact (significand shift : Nat) :
    ExtendedMantissa.ofMantissaAndAccuracy (significand * 2 ^ shift) .exact >>> shift =
      ⟨significand, false, false⟩ := by
  change shift.repeat ExtendedMantissa.shiftRightOne ⟨significand * 2 ^ shift, false, false⟩ = _
  induction shift generalizing significand with
  | zero => rw [Nat.pow_zero, Nat.mul_one]; rfl
  | succ shift ih =>
      have halved : significand * 2 ^ (shift + 1) = significand * 2 * 2 ^ shift := by ring
      rw [halved, Nat.repeat, ih]
      simp [ExtendedMantissa.shiftRightOne]

/-- What a pattern stands for is canonical. -/
theorem isCanonical_of_unpack {bits : BitVec format.numBits} {positive : 0 < significand}
    (parts : UnpackedFloat.unpack format bits = .finite sign significand exponent positive) :
    IsCanonical format significand exponent := by
  have bias : (format.exponentBias : Int) = 2 ^ (format.exponentBits - 1) - 1 := by
    rw [Format.exponentBias, Nat.cast_sub Nat.one_le_two_pow]
    push_cast
    rfl
  have atLeastOne : (1 : Int) ≤ 2 ^ (format.exponentBits - 1) := one_le_pow₀ (by decide)
  simp only [UnpackedFloat.unpack] at parts
  split at parts
  · split at parts <;> contradiction
  split at parts
  case isTrue least =>
    split at parts
    · contradiction
    case isFalse =>
      obtain ⟨-, rfl, rfl⟩ := UnpackedFloat.finite.inj parts
      have few := (Nat.log2_lt positive.ne').mpr (unpackMantissa bits).isLt
      have none : (unpackExponent bits).toNat = 0 := by rw [least]; simp
      simp only [IsCanonical, Format.targetExponent, totalExponent, Format.minExponent,
        Format.mantissaBits, bias, none]
      omega
  case isFalse normal =>
    obtain ⟨-, rfl, rfl⟩ := UnpackedFloat.finite.inj parts
    have full : (1#1 ++ unpackMantissa bits).toNat.log2 = format.mantissaBitsWithoutImplicit := by
      refine (Nat.log2_eq_iff positive.ne').mpr ?_
      have fraction := (unpackMantissa bits).isLt
      rw [BitVec.toNat_append, ← Nat.shiftLeft_add_eq_or_of_lt fraction, Nat.shiftLeft_eq,
        Nat.pow_succ]
      simp only [BitVec.toNat_ofNat]
      omega
    have above : 1 ≤ (unpackExponent bits).toNat :=
      Nat.one_le_iff_ne_zero.mpr fun none =>
        normal (BitVec.eq_of_toNat_eq (by simpa using none))
    simp only [IsCanonical, Format.targetExponent, totalExponent, Format.minExponent,
      Format.mantissaBits, bias, full]
    omega

namespace IsCanonical

theorem shiftToTargetExponent (canonical : IsCanonical format significand exponent)
    (positive : 0 < significand) (shift : Nat) :
    UnpackedFloat.shiftToTargetExponent format (significand * 2 ^ shift) (exponent - shift) .exact =
      (⟨significand, false, false⟩, exponent) := by
  have target : format.targetExponent (totalExponent significand exponent) = exponent := canonical
  have amount : (exponent - (exponent - shift)).toNat = shift := by omega
  simp only [UnpackedFloat.shiftToTargetExponent, totalExponent_mul_pow positive, target,
    shiftToExponent, amount, shiftRight_exact, Int.sub_add_cancel]

/-- Rounding takes off the zeros that follow a canonical significand, and nothing else. -/
theorem roundWithAccuracy (canonical : IsCanonical format significand exponent) (sign : Sign)
    (positive : 0 < significand) (shift : Nat) :
    UnpackedFloat.roundWithAccuracy format sign (significand * 2 ^ shift) (exponent - shift) .exact =
      .finite sign significand exponent positive := by
  have again := canonical.shiftToTargetExponent positive 0
  rw [Nat.pow_zero, Nat.mul_one, Nat.cast_zero, Int.sub_zero] at again
  simp only [UnpackedFloat.roundWithAccuracy, canonical.shiftToTargetExponent positive shift,
    ExtendedMantissa.roundedMantissa, ExtendedMantissa.accuracy, Accuracy.roundToNearestEven, again,
    Nat.ne_of_gt positive, ↓reduceDIte]

/-- A whole number is the number of the format that it becomes with zeros after it. -/
theorem ofNat {whole shift : Nat} (canonical : IsCanonical format (whole * 2 ^ shift) (-shift))
    (positive : 0 < whole) (longer : 0 < whole * 2 ^ shift) :
    UnpackedFloat.ofNat format whole = .finite .positive (whole * 2 ^ shift) (-shift) longer := by
  have above : compare (whole : Int) 0 = .gt := Int.compare_eq_gt.mpr (by omega)
  have target : format.targetExponent (totalExponent whole 0) = -shift := by
    rw [← totalExponent_mul_pow positive 0 shift, Int.zero_sub]
    exact canonical
  have rounded := canonical.roundWithAccuracy .positive longer 0
  rw [Nat.pow_zero, Nat.mul_one, Nat.cast_zero, Int.sub_zero] at rounded
  simp only [UnpackedFloat.ofNat, UnpackedFloat.ofInt, UnpackedFloat.normalize, above,
    UnpackedFloat.round, Int.toNat_natCast, target, decreaseExponent, Int.zero_sub, Int.neg_neg,
    Nat.shiftLeft_eq, rounded]

end IsCanonical

/-- A significand that is worth a small whole number ends in as many zeros as its exponent is below
zero. -/
theorem exists_shift_of_whole? {whole : Nat} (canonical : IsCanonical .binary64 significand exponent)
    (positive : 0 < significand) (isWhole : whole? significand exponent = some whole)
    (small : whole < 2 ^ 52) :
    ∃ shift : Nat, significand = whole * 2 ^ shift ∧ exponent = -shift := by
  cases exponent with
  | ofNat zeros =>
      obtain rfl := Option.some.inj isWhole
      have full : 52 ≤ significand.log2 := by
        simp only [IsCanonical, Format.targetExponent, totalExponent, Format.minExponent,
          Format.mantissaBits, Int.ofNat_eq_natCast] at canonical
        omega
      have large := (Nat.le_log2 positive.ne').mp full
      have longer := Nat.le_mul_of_pos_right significand (Nat.two_pow_pos zeros)
      exact absurd small (not_lt.mpr (large.trans longer))
  | negSucc below =>
      simp only [whole?] at isWhole
      split at isWhole
      case isTrue divides =>
        obtain rfl := Option.some.inj isWhole
        exact ⟨below + 1, (Nat.div_mul_cancel (Nat.dvd_of_mod_eq_zero divides)).symm, rfl⟩
      case isFalse => contradiction

variable {number : Float} {whole : Nat} {positive : 0 < significand}

theorem isCanonical_unpacked
    (parts : unpacked number = .finite sign significand exponent positive) :
    IsCanonical .binary64 significand exponent := isCanonical_of_unpack parts

theorem mul_one_of_unpacked
    (parts : unpacked number = .finite .positive significand exponent positive) :
    number * Float.exactlyRepresentablePowersOfTen[0] = number := by
  have one : unpacked Float.exactlyRepresentablePowersOfTen[0] =
      .finite .positive (2 ^ 52) (-(52 : Nat)) (by decide) := rfl
  have product : UnpackedFloat.mul .binary64 (unpacked number)
      (unpacked Float.exactlyRepresentablePowersOfTen[0]) = unpacked number := by
    rw [parts, one]
    exact (isCanonical_unpacked parts).roundWithAccuracy .positive positive 52
  change Float.ofModel (.pack (UnpackedFloat.mul .binary64 (unpacked number)
    (unpacked Float.exactlyRepresentablePowersOfTen[0]))) = number
  rw [product, pack_unpacked]

theorem toFloat_whole
    (parts : unpacked number = .finite .positive significand exponent positive)
    (isWhole : whole? significand exponent = some whole) (small : whole < 2 ^ 52) :
    whole.toUInt64.toFloat = number := by
  have canonical := isCanonical_unpacked parts
  obtain ⟨shift, rfl, rfl⟩ := exists_shift_of_whole? canonical positive isWhole small
  have nonzero : 0 < whole := Nat.pos_of_mul_pos_right positive
  have same : whole.toUInt64.toNat = whole :=
    UInt64.toNat_ofNat_of_lt' (small.trans (by decide))
  change Float.ofModel (.pack (UnpackedFloat.ofNat .binary64 whole.toUInt64.toNat)) = number
  rw [same, canonical.ofNat nonzero positive, ← parts, pack_unpacked]

/-- A small whole number is what its digits are read as. -/
theorem toFloat_digits
    (parts : unpacked number = .finite .positive significand exponent positive)
    (isWhole : whole? significand exponent = some whole) (small : whole < integerTextBound) :
    Decimal.toFloat ⟨whole, 0⟩ = number := by
  have fits : whole < 2 ^ 52 := small.trans (by decide)
  have nonzero : whole ≠ 0 := by
    rintro rfl
    obtain ⟨shift, rfl, -⟩ :=
      exists_shift_of_whole? (isCanonical_unpacked parts) positive isWhole fits
    simp at positive
  have exactly : whole < 2 ^ 53 ∧ 0 ≤ 22 := ⟨fits.trans (by decide), by decide⟩
  rw [Decimal.toFloat_eq_ofScientific nonzero small, Float.ofScientific, dif_pos exactly,
    if_neg Bool.false_ne_true, toFloat_whole parts isWhole fits]
  exact mul_one_of_unpacked parts

end

section

variable {number : Float}

/-- The text of a constant without a sign is read as the constant, if its plain text is. That says
nothing of small whole numbers, whose text is another one; they are read back in any case. -/
theorem reading?_of_plainReadsBack (finite : number.isFinite = true) (unsigned : number.abs = number)
    (plain : PlainReadsBack number) : reading? number = some number := by
  change (unpacked number).isFinite = true at finite
  rw [abs_eq_self_iff] at unsigned
  rw [PlainReadsBack] at plain
  cases parts : unpacked number with
  | notANumber => simp [parts, UnpackedFloat.isFinite] at finite
  | infinity sign => simp [parts, UnpackedFloat.isFinite] at finite
  | zero sign =>
      rw [parts, IsMagnitude, UnpackedFloat.abs] at unsigned
      cases unsigned
      simpa [reading?, constantText, plainText, parts, signed] using plain
  | finite sign significand exponent positive =>
      rw [parts, IsMagnitude, UnpackedFloat.abs] at unsigned
      cases unsigned
      simp only [reading?, constantText, parts]
      split
      case h_1 whole isSmall =>
        obtain ⟨isWhole, small⟩ := Option.filter_eq_some_iff.mp isSmall
        rw [signed, String.toList_ofList, Decimal.ofText?_toDigits, Option.map_some,
          toFloat_digits parts isWhole (of_decide_eq_true small)]
      case h_2 => exact plain

theorem PlainReadsBack.literalReadsBack (finite : number.isFinite = true)
    (unsigned : number.abs = number) (plain : PlainReadsBack number) :
    LiteralReadsBack number := by
  rw [LiteralReadsBack, reading?_of_plainReadsBack finite unsigned plain]
  exact ofLiteral?_of_isFinite finite

end

end Numeral

end Formula
