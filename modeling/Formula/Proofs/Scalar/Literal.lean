import Formula.Proofs.Scalar.Reading

namespace Formula

open Float.Model

/-! The numbers that literals are read as.

A literal has no sign, and neither has its number: rounding keeps a sign, and products and quotients
take theirs from their parts. So the plain text of the number has digits and at most a point.
-/

namespace Numeral

/-- The number has no sign, not even a zero with one. -/
def IsMagnitude (number : UnpackedFloat) : Prop := number.abs = number

variable {format : Format} {left right magnitude : UnpackedFloat} {number : Float}

theorem isMagnitude_roundWithAccuracy (significand : Nat) (exponent : Int)
    (accuracy : UnpackedFloat.Accuracy) :
    IsMagnitude
      (UnpackedFloat.roundWithAccuracy format .positive significand exponent accuracy) := by
  simp only [IsMagnitude, UnpackedFloat.roundWithAccuracy]
  split <;> rfl

theorem isMagnitude_ofNat (whole : Nat) : IsMagnitude (UnpackedFloat.ofNat format whole) := by
  have notBelow : compare (whole : Int) 0 ≠ .lt := by
    rw [Ne, Int.compare_eq_lt]
    omega
  simp only [UnpackedFloat.ofNat, UnpackedFloat.ofInt, UnpackedFloat.normalize]
  split
  · contradiction
  · rfl
  · exact isMagnitude_roundWithAccuracy ..

theorem IsMagnitude.mul (first : IsMagnitude left) (second : IsMagnitude right) :
    IsMagnitude (UnpackedFloat.mul format left right) := by
  rw [← first, ← second]
  cases left <;> cases right <;> first | rfl | exact isMagnitude_roundWithAccuracy ..

theorem IsMagnitude.div (first : IsMagnitude left) (second : IsMagnitude right) :
    IsMagnitude (UnpackedFloat.div format left right) := by
  rw [← first, ← second]
  cases left <;> cases right <;> first | rfl | exact isMagnitude_roundWithAccuracy ..

theorem isMagnitude_ofScientific (coefficient : Nat) (exponent : Int) :
    IsMagnitude (UnpackedFloat.ofScientific format coefficient exponent) := by
  simp only [UnpackedFloat.ofScientific]
  split
  · rfl
  split
  · rfl
  split
  · rfl
  split
  · exact IsMagnitude.mul rfl rfl
  · exact IsMagnitude.div rfl rfl

/-- The sign bit of a pattern is the sign of the number that is packed, also where the number
overflows to an infinity. -/
theorem IsMagnitude.unpackSign_pack (unsigned : IsMagnitude magnitude) :
    UnpackedFloat.unpackSign (UnpackedFloat.pack format magnitude) = 0#1 := by
  have positive (exponent : BitVec format.exponentBits)
      (mantissa : BitVec format.mantissaBitsWithoutImplicit) :
      UnpackedFloat.unpackSign (UnpackedFloat.packComponents format .positive exponent mantissa) =
        0#1 := UnpackedFloat.unpackSign_packComponents ..
  rw [← unsigned]
  cases magnitude with
  | finite sign significand exponent nonzero =>
      simp only [UnpackedFloat.abs, UnpackedFloat.pack]
      split
      · exact positive ..
      split
      · exact positive ..
      · exact positive ..
  | _ => exact positive ..

theorem IsMagnitude.unpack_pack (unsigned : IsMagnitude magnitude) :
    IsMagnitude (UnpackedFloat.unpack format (UnpackedFloat.pack format magnitude)) := by
  simp only [IsMagnitude, UnpackedFloat.unpack, unsigned.unpackSign_pack]
  split
  · split <;> rfl
  split
  · split <;> rfl
  · rfl

theorem abs_eq_self_iff : number.abs = number ↔ IsMagnitude (unpacked number) := by
  constructor
  · intro unsigned
    rw [IsMagnitude, ← unpacked_abs, unsigned]
  · intro unsigned
    have unfolded : number.abs = Float.ofModel (.pack (unpacked number).abs) := rfl
    rw [unfolded, unsigned, pack_unpacked]

theorem IsMagnitude.abs_ofModel_pack (unsigned : IsMagnitude magnitude) :
    (Float.ofModel (.pack magnitude)).abs = Float.ofModel (.pack magnitude) :=
  abs_eq_self_iff.mpr unsigned.unpack_pack

theorem abs_exactlyRepresentablePowersOfTen :
    ∀ index, (below : index < Float.exactlyRepresentablePowersOfTen.size) →
      Float.exactlyRepresentablePowersOfTen[index].abs =
        Float.exactlyRepresentablePowersOfTen[index] := by
  decide +kernel

/-- The number that a literal is read as has no sign. -/
theorem abs_toFloat (decimal : Decimal) : decimal.toFloat.abs = decimal.toFloat := by
  simp only [Decimal.toFloat]
  split
  · decide +kernel
  split
  · decide +kernel
  split
  · decide +kernel
  simp only [Float.ofScientific]
  split
  case isTrue small =>
    have whole : IsMagnitude (unpacked decimal.coefficient.toUInt64.toFloat) :=
      (isMagnitude_ofNat _).unpack_pack
    have power := abs_eq_self_iff.mp (abs_exactlyRepresentablePowersOfTen
      decimal.exponent.natAbs (Nat.lt_succ_of_le small.2))
    split
    · exact (whole.div power).abs_ofModel_pack
    · exact (whole.mul power).abs_ofModel_pack
  case isFalse => exact (isMagnitude_ofScientific ..).abs_ofModel_pack

/-- Reading the plain text of the number gives the number. -/
def PlainReadsBack (number : Float) : Prop :=
  (Decimal.ofText? (plainText number).toList).map Decimal.toFloat = some number

instance (number : Float) : Decidable (PlainReadsBack number) := inferInstanceAs (Decidable (_ = _))

/-- A finite number without a sign is written with digits and a point only. -/
theorem isLiteralBody_of_mem_plainText (finite : number.isFinite = true)
    (unsigned : number.abs = number) {character : Char}
    (member : character ∈ (plainText number).toList) :
    Decimal.isLiteralBody character = true := by
  change (unpacked number).isFinite = true at finite
  rw [abs_eq_self_iff] at unsigned
  simp only [plainText] at member
  cases parts : unpacked number with
  | notANumber => simp [parts, UnpackedFloat.isFinite] at finite
  | infinity sign => simp [parts, UnpackedFloat.isFinite] at finite
  | zero sign =>
      rw [parts, IsMagnitude, UnpackedFloat.abs] at unsigned
      cases unsigned
      obtain rfl : character = '0' := by simpa [parts, signed] using member
      rfl
  | finite sign significand exponent positive =>
      rw [parts, IsMagnitude, UnpackedFloat.abs] at unsigned
      cases unsigned
      simp only [parts, signed, String.toList_ofList] at member
      exact Decimal.isLiteralBody_of_mem_positional member

end Numeral

end Formula
