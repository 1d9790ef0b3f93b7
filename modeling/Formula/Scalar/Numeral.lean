import Formula.Scalar.Basic

namespace Formula

open Float.Model

/-! Machine numbers: scalars with a binary format, between which a number is rounded to the
nearest, ties to the even significand.
-/

/-- Scalars that have a binary floating-point format. -/
class Numeral (α : Type) extends Scalar α where
  format : Format
  /-- Sign, significand and exponent of a number. -/
  unpacked : α → UnpackedFloat
  /-- The nearest number of this format. -/
  ofFloat : Float → α
  /-- The nearest double-precision number. -/
  toFloat : α → Float
  /-- The nearest number to π. -/
  pi : α
  /-- The nearest number to Euler's number. -/
  euler : α
  label : String

/-- The number of a format that is nearest to an unpacked number of any format. -/
def nearestIn (format : Format) : UnpackedFloat → UnpackedFloat
  | .finite sign significand exponent _ => .round format sign significand exponent
  | special => special

/-- The single-precision number nearest to a double. -/
def nearestSingle (number : Float) : Float32 :=
  .ofModel (.pack (nearestIn .binary32 number.toModel.unpack))

/-- The double-precision number nearest to a single; it is the same number. -/
def nearestDouble (number : Float32) : Float :=
  .ofModel (.pack (nearestIn .binary64 number.toModel.unpack))

instance : Scalar Float where
  elementary
    | .acos => Float.acos
    | .asin => Float.asin
    | .atan => Float.atan
    | .log => Float.log
    | .cos => Float.cos
    | .sin => Float.sin
    | .sqrt => Float.sqrt
    | .tan => Float.tan
    | .exp => Float.exp
  power := Float.pow

instance : Numeral Float where
  format := .binary64
  unpacked number := number.toModel.unpack
  ofFloat := id
  toFloat := id
  pi := 3.14159265358979323846
  euler := 2.71828182845904523536
  label := "f64"

instance : Scalar Float32 where
  elementary
    | .acos => Float32.acos
    | .asin => Float32.asin
    | .atan => Float32.atan
    | .log => Float32.log
    | .cos => Float32.cos
    | .sin => Float32.sin
    | .sqrt => Float32.sqrt
    | .tan => Float32.tan
    | .exp => Float32.exp
  power := Float32.pow

instance : Numeral Float32 where
  format := .binary32
  unpacked number := number.toModel.unpack
  ofFloat := nearestSingle
  toFloat := nearestDouble
  pi := 3.14159265358979323846
  euler := 2.71828182845904523536
  label := "f32"

namespace Numeral

variable {α : Type} [Numeral α]

/-- The scalar that a literal stands for, if it equals the literal. -/
def ofLiteral? (literal : Float) : Option α :=
  if (toFloat (ofFloat literal : α)) == literal then some (ofFloat literal) else none

end Numeral

end Formula
