import Mathlib
import Formula.Scalar.Text

namespace Formula

open Float.Model

/-! The sign and the magnitude of machine numbers.

A number is printed as its magnitude, with a sign before it if it lies below zero. So what the text
of a number says follows from the text of its magnitude.
-/

namespace Numeral

/-- Without its sign bit a pattern stands for the magnitude. -/
theorem unpack_packComponents_positive {format : Format} (bits : BitVec format.numBits) :
    UnpackedFloat.unpack format (UnpackedFloat.packComponents format .positive
      (UnpackedFloat.unpackExponent bits) (UnpackedFloat.unpackMantissa bits)) =
        (UnpackedFloat.unpack format bits).abs := by
  simp only [UnpackedFloat.unpack, UnpackedFloat.unpackExponent_packComponents,
    UnpackedFloat.unpackMantissa_packComponents, UnpackedFloat.unpackSign_packComponents,
    UnpackedFloat.Sign.ofBitVec_toBitVec]
  split
  · split <;> rfl
  split
  · split <;> rfl
  · rfl

theorem unpack_pack_abs {format : Format} (wide : 2 ≤ format.exponentBits)
    (bits : BitVec format.numBits) :
    UnpackedFloat.unpack format
        (UnpackedFloat.pack format (UnpackedFloat.unpack format bits).abs) =
      (UnpackedFloat.unpack format bits).abs := by
  by_cases special : UnpackedFloat.unpack format bits = .notANumber
  · rw [special]
    exact UnpackedFloat.unpack_packedNaN
  · have unsigned : format.Valid (UnpackedFloat.packComponents format .positive
        (UnpackedFloat.unpackExponent bits) (UnpackedFloat.unpackMantissa bits)) := by
      refine ⟨fun largest nonzero => absurd ?_ special⟩
      rw [UnpackedFloat.unpackExponent_packComponents] at largest
      rw [UnpackedFloat.unpackMantissa_packComponents] at nonzero
      simp [UnpackedFloat.unpack, largest, nonzero]
    rw [← unpack_packComponents_positive, UnpackedFloat.pack_unpack_of_valid unsigned wide]

theorem pack_unpacked (number : Float) : Float.ofModel (.pack (unpacked number)) = number := by
  obtain ⟨⟨⟨bits⟩, valid⟩⟩ := number
  have same : UnpackedFloat.pack .binary64 (UnpackedFloat.unpack .binary64 bits) = bits :=
    UnpackedFloat.pack_unpack_of_valid valid (by decide)
  simp only [unpacked, Float.Model.unpack, Float.Model.pack, same]

theorem unpacked_abs (number : Float) : unpacked number.abs = (unpacked number).abs :=
  unpack_pack_abs (by decide) _

theorem pack_unpacked_single (number : Float32) :
    Float32.ofModel (.pack (unpacked number)) = number := by
  obtain ⟨⟨⟨bits⟩, valid⟩⟩ := number
  have same : UnpackedFloat.pack .binary32 (UnpackedFloat.unpack .binary32 bits) = bits :=
    UnpackedFloat.pack_unpack_of_valid valid (by decide)
  simp only [unpacked, Float32.Model.unpack, Float32.Model.pack, same]

theorem isFinite_of_nearestDouble {number : Float32}
    (finite : (nearestDouble number).isFinite = true) : (unpacked number).isFinite = true := by
  simp only [nearestDouble] at finite
  cases parts : unpacked number with
  | notANumber =>
      rw [show number.toModel.unpack = .notANumber from parts] at finite
      exact absurd finite (by decide)
  | infinity sign =>
      rw [show number.toModel.unpack = .infinity sign from parts] at finite
      cases sign <;> exact absurd finite (by decide)
  | zero sign => rfl
  | finite sign significand exponent positive => rfl

end Numeral

/-- What is taken from the machine: a number is kept as what it unpacks to, its sign can be taken off
and turned around, and only a finite number is the same as a finite one of double precision. -/
class LawfulNumeral (α : Type) [Numeral α] where
  pack : UnpackedFloat → α
  pack_unpacked (number : α) : pack (Numeral.unpacked number) = number
  unpacked_pack_abs (number : α) :
    Numeral.unpacked (pack (Numeral.unpacked number).abs) = (Numeral.unpacked number).abs
  neg_eq_pack (number : α) : -number = pack (Numeral.unpacked number).neg
  isFinite_of_toFloat (number : α) :
    (Numeral.toFloat number).isFinite = true → (Numeral.unpacked number).isFinite = true

instance : LawfulNumeral Float where
  pack number := .ofModel (.pack number)
  pack_unpacked := Numeral.pack_unpacked
  unpacked_pack_abs := Numeral.unpacked_abs
  neg_eq_pack _ := rfl
  isFinite_of_toFloat _ finite := finite

instance : LawfulNumeral Float32 where
  pack number := .ofModel (.pack number)
  pack_unpacked := Numeral.pack_unpacked_single
  unpacked_pack_abs _ := Numeral.unpack_pack_abs (by decide) _
  neg_eq_pack _ := rfl
  isFinite_of_toFloat _ finite := Numeral.isFinite_of_nearestDouble finite

namespace Numeral

section

variable {α : Type} [Numeral α] {number : α}

def isFinite (number : α) : Bool := (unpacked number).isFinite

variable [LawfulNumeral α]

theorem eq_of_unpacked_eq {other : α} (same : unpacked number = unpacked other) :
    number = other := by
  rw [← LawfulNumeral.pack_unpacked number, same, LawfulNumeral.pack_unpacked]

/-- The number without its sign. -/
def magnitude (number : α) : α := LawfulNumeral.pack (unpacked number).abs

theorem unpacked_magnitude (number : α) :
    unpacked (magnitude number) = (unpacked number).abs :=
  LawfulNumeral.unpacked_pack_abs number

@[simp] theorem isFinite_magnitude (number : α) :
    isFinite (magnitude number) = isFinite number := by
  rw [isFinite, unpacked_magnitude, isFinite]
  cases unpacked number <;> rfl

@[simp] theorem isBelowZero_magnitude (number : α) : isBelowZero (magnitude number) = false := by
  rw [isBelowZero, unpacked_magnitude]
  cases unpacked number <;> rfl

@[simp] theorem magnitude_magnitude (number : α) :
    magnitude (magnitude number) = magnitude number := by
  refine eq_of_unpacked_eq ?_
  rw [unpacked_magnitude, unpacked_magnitude]
  cases unpacked number <;> rfl

theorem neg_magnitude_of_isBelowZero (below : isBelowZero number = true) :
    -magnitude number = number := by
  have negated : (unpacked number).abs.neg = unpacked number := by
    simp only [isBelowZero] at below
    split at below
    case h_1 special => rw [special]; rfl
    case h_2 parts => rw [parts]; rfl
    case h_3 => contradiction
  rw [LawfulNumeral.neg_eq_pack, unpacked_magnitude, negated, LawfulNumeral.pack_unpacked]

/-- A number below zero is written as a sign and its magnitude. -/
theorem constantText_of_isBelowZero (below : isBelowZero number = true) :
    constantText number = "-" ++ constantText (magnitude number) := by
  simp only [constantText, plainText, unpacked_magnitude]
  simp only [isBelowZero] at below
  split at below
  case h_1 special => simp [special, UnpackedFloat.abs, signed]
  case h_2 parts =>
    simp only [parts, UnpackedFloat.abs, signed]
    split <;> rfl
  case h_3 => contradiction

theorem constantText_magnitude (notBelow : isBelowZero number = false) :
    constantText (magnitude number) = constantText number := by
  simp only [constantText, plainText, unpacked_magnitude]
  simp only [isBelowZero] at notBelow
  cases parts : unpacked number with
  | infinity sign => cases sign <;> simp_all [UnpackedFloat.abs]
  | finite sign significand exponent positive => cases sign <;> simp_all [UnpackedFloat.abs]
  | _ => rfl

/-- The number without the sign of a zero, which no text shows. -/
def shown (number : α) : α := if isBelowZero number then number else magnitude number

@[simp]
theorem isBelowZero_shown (number : α) : isBelowZero (shown number) = isBelowZero number := by
  cases below : isBelowZero number <;> simp [shown, below]

@[simp] theorem shown_shown (number : α) : shown (shown number) = shown number := by
  cases below : isBelowZero number <;> simp [shown, below]

@[simp] theorem magnitude_shown (number : α) : magnitude (shown number) = magnitude number := by
  cases below : isBelowZero number <;> simp [shown, below]

@[simp] theorem isFinite_shown (number : α) : isFinite (shown number) = isFinite number := by
  cases below : isBelowZero number <;> simp [shown, below]

@[simp]
theorem constantText_shown (number : α) : constantText (shown number) = constantText number := by
  cases below : isBelowZero number with
  | true => simp [shown, below]
  | false => simpa [shown, below] using constantText_magnitude below

end

section

variable {number : Float}

/-- The rational number that a finite machine number is; of the special numbers, zero. -/
def exact (number : Float) : ℚ :=
  match unpacked number with
  | .finite sign significand exponent _ => sign.apply significand * 2 ^ exponent
  | _ => 0

theorem exact_of_isBelowZero (below : isBelowZero number = true) :
    exact number = -exact (magnitude number) := by
  simp only [exact, unpacked_magnitude]
  simp only [isBelowZero] at below
  split at below
  case h_1 special => simp [special, UnpackedFloat.abs]
  case h_2 parts => simp [parts, UnpackedFloat.abs, UnpackedFloat.Sign.apply]
  case h_3 => contradiction

theorem exact_magnitude (notBelow : isBelowZero number = false) :
    exact (magnitude number) = exact number := by
  simp only [exact, unpacked_magnitude]
  simp only [isBelowZero] at notBelow
  cases parts : unpacked number with
  | finite sign significand exponent positive => cases sign <;> simp_all [UnpackedFloat.abs]
  | _ => rfl

theorem exact_shown (number : Float) : exact (shown number) = exact number := by
  cases below : isBelowZero number with
  | true => simp [shown, below]
  | false => simpa [shown, below] using exact_magnitude below

end

end Numeral

end Formula
