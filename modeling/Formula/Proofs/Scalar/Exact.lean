import Mathlib
import Formula.Scalar.Basic

namespace Formula

/-! Exact arithmetic, and the dual numbers over it.

In a dual number `u + u' ε` the coefficient of `ε` is the derivative of the other part. Sums,
products and inverses are those of the ring; the rest follows the rules of a calculus textbook,
with the derivatives of the elementary functions as `slope` lists them.
-/

/-- A field with elementary functions and powers. Of the powers it is known what the exponents
zero, one and two give. -/
class ExactField (K : Type) extends Field K where
  elementary : Elementary → K → K
  power : K → K → K
  power_zero (base : K) : power base 0 = 1
  power_one (base : K) : power base 1 = base
  power_two (base : K) : power base (1 + 1) = base * base

namespace ExactField

variable {K : Type} [ExactField K]

def slope : Elementary → K → K
  | .sin, u => elementary .cos u
  | .cos, u => -elementary .sin u
  | .tan, u => 1 / (elementary .cos u * elementary .cos u)
  | .asin, u => 1 / elementary .sqrt (1 - u * u)
  | .acos, u => -(1 / elementary .sqrt (1 - u * u))
  | .atan, u => 1 / (1 + u * u)
  | .log, u => 1 / u
  | .sqrt, u => 1 / ((1 + 1) * elementary .sqrt u)
  | .exp, u => elementary .exp u

variable [DecidableEq K]

instance scalar : Scalar K where
  elementary := elementary
  power := power

/-- The exponent of a power may be a dual number as well; then its derivative counts with the
logarithm of the base. -/
instance dualScalar : Scalar (DualNumber K) where
  div left right := left * right⁻¹
  beq left right := decide (left.fst = right.fst) && decide (left.snd = right.snd)
  elementary function u := (elementary function u.fst, slope function u.fst * u.snd)
  power base exponent :=
    (power base.fst exponent.fst,
      exponent.fst * power base.fst (exponent.fst - 1) * base.snd +
        elementary .log base.fst * power base.fst exponent.fst * exponent.snd)

end ExactField

end Formula
