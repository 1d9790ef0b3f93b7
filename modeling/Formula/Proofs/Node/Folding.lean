import Mathlib
import Formula.Node.Derivative
import Formula.Proofs.Scalar.Exact

namespace Formula.Node

/-! The rules of differentiation, read in a ring.

Whatever is folded away, the derivative means what the rule says, in every ring in which expressions
can be read. There are two such readings: the values themselves, and the dual numbers, in which the
derivative of a derivative shows.
-/

/-- A reading of expressions over a field in a commutative ring. Quotients are products with an
inverse, of which it is only known that one is its own. -/
structure Interpretation (K R : Type) [ExactField K] [DecidableEq K] [CommRing R] where
  meaning : Node K → R
  embed : K →+* R
  inverse : R → R
  elementary : Elementary → R → R
  /-- Powers with exponents from the field. -/
  raise : R → K → R
  constant (value : K) : meaning (.constant value) = embed value
  negation (operand : Node K) : meaning (.negation operand) = -meaning operand
  call (function : Elementary) (operand : Node K) :
    meaning (.call function operand) = elementary function (meaning operand)
  add (left right : Node K) : meaning (.binary .add left right) = meaning left + meaning right
  sub (left right : Node K) : meaning (.binary .sub left right) = meaning left - meaning right
  mul (left right : Node K) : meaning (.binary .mul left right) = meaning left * meaning right
  div (left right : Node K) :
    meaning (.binary .div left right) = meaning left * inverse (meaning right)
  power (base : Node K) (exponent : K) :
    meaning (.power base (.constant exponent)) = raise (meaning base) exponent
  inverse_one : inverse 1 = 1
  raise_zero (base : R) : raise base 0 = 1
  raise_one (base : R) : raise base 1 = base
  raise_two (base : R) : raise base (1 + 1) = base * base

namespace Interpretation

section

variable {K R : Type} [ExactField K] [DecidableEq K] [CommRing R] (reading : Interpretation K R)

theorem meaning_of_isZero {node : Node K} (zero : node.isZero = true) :
    reading.meaning node = 0 := by
  cases node with
  | constant value =>
      obtain rfl : value = 0 := by simpa [isZero, asConstant] using zero
      rw [reading.constant, map_zero]
  | _ => simp [isZero, asConstant] at zero

theorem meaning_of_isOne {node : Node K} (one : node.isOne = true) :
    reading.meaning node = 1 := by
  cases node with
  | constant value =>
      obtain rfl : value = 1 := by simpa [isOne, asConstant] using one
      rw [reading.constant, map_one]
  | _ => simp [isOne, asConstant] at one

theorem meaning_zero : reading.meaning (.constant 0) = 0 :=
  reading.meaning_of_isZero (by simp [isZero, asConstant])

theorem meaning_one : reading.meaning (.constant 1) = 1 :=
  reading.meaning_of_isOne (by simp [isOne, asConstant])

theorem opposite (node : Node K) : reading.meaning node.opposite = -reading.meaning node := by
  cases node with
  | constant value =>
      rw [Node.opposite, reading.constant, reading.constant, map_neg]
  | _ => exact reading.negation _

theorem sum (left right : Node K) :
    reading.meaning (left.sum right) = reading.meaning left + reading.meaning right := by
  unfold Node.sum
  split
  case isTrue zero => rw [reading.meaning_of_isZero zero, zero_add]
  case isFalse =>
    split
    case isTrue zero => rw [reading.meaning_of_isZero zero, add_zero]
    case isFalse => exact reading.add left right

theorem difference (left right : Node K) :
    reading.meaning (left.difference right) = reading.meaning left - reading.meaning right := by
  unfold Node.difference
  split
  case isTrue zero => rw [reading.meaning_of_isZero zero, sub_zero]
  case isFalse =>
    split
    case isTrue zero => rw [reading.opposite, reading.meaning_of_isZero zero, zero_sub]
    case isFalse => exact reading.sub left right

theorem product (left right : Node K) :
    reading.meaning (left.product right) = reading.meaning left * reading.meaning right := by
  unfold Node.product
  split
  case isTrue zero =>
    rcases Bool.or_eq_true_iff.mp zero with zero | zero
    · rw [reading.meaning_of_isZero zero, zero_mul, reading.meaning_zero]
    · rw [reading.meaning_of_isZero zero, mul_zero, reading.meaning_zero]
  case isFalse =>
    split
    case isTrue one => rw [reading.meaning_of_isOne one, one_mul]
    case isFalse =>
      split
      case isTrue one => rw [reading.meaning_of_isOne one, mul_one]
      case isFalse => exact reading.mul left right

theorem quotient (numerator denominator : Node K) :
    reading.meaning (numerator.quotient denominator) =
      reading.meaning numerator * reading.inverse (reading.meaning denominator) := by
  unfold Node.quotient
  split
  case isTrue zero => rw [reading.meaning_of_isZero zero, zero_mul, reading.meaning_zero]
  case isFalse =>
    split
    case isTrue one => rw [reading.meaning_of_isOne one, reading.inverse_one, mul_one]
    case isFalse => exact reading.div numerator denominator

theorem raised (base : Node K) (exponent : K) :
    reading.meaning (base.raised exponent) = reading.raise (reading.meaning base) exponent := by
  unfold Node.raised
  split
  case isTrue zero => rw [beq_iff_eq.mp zero, reading.raise_zero, reading.meaning_one]
  case isFalse =>
    split
    case isTrue one => rw [beq_iff_eq.mp one, reading.raise_one]
    case isFalse => exact reading.power base exponent

theorem raised_two (base : Node K) :
    reading.meaning (base.raised Scalar.two) = reading.meaning base * reading.meaning base := by
  rw [reading.raised]
  exact reading.raise_two _

theorem rootOfComplement (operand : Node K) :
    reading.meaning operand.rootOfComplement =
      reading.elementary .sqrt (1 - reading.meaning operand * reading.meaning operand) := by
  rw [Node.rootOfComplement, reading.call, reading.sub, reading.meaning_one, reading.raised_two]

/-- The derivatives of the elementary functions. -/
def slope : Elementary → R → R
  | .sin, u => reading.elementary .cos u
  | .cos, u => -reading.elementary .sin u
  | .tan, u => reading.inverse (reading.elementary .cos u * reading.elementary .cos u)
  | .asin, u => reading.inverse (reading.elementary .sqrt (1 - u * u))
  | .acos, u => -reading.inverse (reading.elementary .sqrt (1 - u * u))
  | .atan, u => reading.inverse (1 + u * u)
  | .log, u => reading.inverse u
  | .sqrt, u => reading.inverse ((1 + 1) * reading.elementary .sqrt u)
  | .exp, u => reading.elementary .exp u

theorem chain (function : Elementary) (operand inner : Node K) :
    reading.meaning (Node.chain function operand inner) =
      reading.slope function (reading.meaning operand) * reading.meaning inner := by
  cases function with
  | sin => rw [Node.chain, reading.product, reading.call, slope]
  | cos => rw [Node.chain, reading.product, reading.opposite, reading.call, slope]
  | exp => rw [Node.chain, reading.product, reading.call, slope]
  | tan => rw [Node.chain, reading.quotient, reading.raised_two, reading.call, slope, mul_comm]
  | asin => rw [Node.chain, reading.quotient, reading.rootOfComplement, slope, mul_comm]
  | acos =>
      rw [Node.chain, reading.opposite, reading.quotient, reading.rootOfComplement, slope,
        neg_mul, mul_comm]
  | atan =>
      rw [Node.chain, reading.quotient, reading.add, reading.meaning_one, reading.raised_two, slope,
        mul_comm]
  | log => rw [Node.chain, reading.quotient, slope, mul_comm]
  | sqrt =>
      have two : reading.embed Scalar.two = 1 + 1 := by rw [Scalar.two, map_add, map_one]
      rw [Node.chain, reading.quotient, reading.product, reading.constant, two, reading.call, slope,
        mul_comm]

variable (present : Assignment K) (name : String)

/-- The derivative of a part, under which the rules go on, or a zero that is folded at once. -/
theorem meaning_ite_isZero {inner whole : Node K} {factor : R}
    (rule : reading.meaning whole = factor * reading.meaning inner) :
    reading.meaning (if inner.isZero then .constant 0 else whole) =
      factor * reading.meaning inner := by
  split
  case isTrue zero => rw [reading.meaning_of_isZero zero, mul_zero, reading.meaning_zero]
  case isFalse => exact rule

theorem derivative_negation (operand : Node K) :
    reading.meaning ((Node.negation operand).derivative present name) =
      -reading.meaning (operand.derivative present name) := by
  rw [← neg_one_mul]
  refine reading.meaning_ite_isZero ?_
  rw [reading.opposite, neg_one_mul]

theorem derivative_call (function : Elementary) (operand : Node K) :
    reading.meaning ((Node.call function operand).derivative present name) =
      reading.slope function (reading.meaning operand) *
        reading.meaning (operand.derivative present name) :=
  reading.meaning_ite_isZero (reading.chain function operand _)

theorem derivative_add (left right : Node K) :
    reading.meaning ((Node.binary .add left right).derivative present name) =
      reading.meaning (left.derivative present name) +
        reading.meaning (right.derivative present name) :=
  reading.sum _ _

theorem derivative_sub (left right : Node K) :
    reading.meaning ((Node.binary .sub left right).derivative present name) =
      reading.meaning (left.derivative present name) -
        reading.meaning (right.derivative present name) :=
  reading.difference _ _

theorem derivative_mul (left right : Node K) :
    reading.meaning ((Node.binary .mul left right).derivative present name) =
      reading.meaning (left.derivative present name) * reading.meaning right +
        reading.meaning left * reading.meaning (right.derivative present name) := by
  rw [derivative, reading.sum, reading.product, reading.product]

theorem derivative_div (left right : Node K) :
    reading.meaning ((Node.binary .div left right).derivative present name) =
      (reading.meaning (left.derivative present name) * reading.meaning right -
        reading.meaning left * reading.meaning (right.derivative present name)) *
          reading.inverse (reading.meaning right * reading.meaning right) := by
  rw [derivative, reading.quotient, reading.difference, reading.product, reading.product,
    reading.raised_two]

theorem derivative_power (base exponent : Node K) :
    reading.meaning ((Node.power base exponent).derivative present name) =
      reading.embed (exponent.value present) *
        reading.raise (reading.meaning base) (exponent.value present - 1) *
        reading.meaning (base.derivative present name) := by
  refine reading.meaning_ite_isZero ?_
  rw [reading.product, reading.product, reading.constant, reading.raised]

end

section

variable {K : Type} [ExactField K] [DecidableEq K]

/-- The values under an assignment. -/
def ofValues (assignment : Assignment K) : Interpretation K K where
  meaning := value assignment
  embed := RingHom.id K
  inverse u := u⁻¹
  elementary := ExactField.elementary
  raise := ExactField.power
  constant _ := rfl
  negation _ := rfl
  call _ _ := rfl
  add _ _ := rfl
  sub _ _ := rfl
  mul _ _ := rfl
  div _ _ := div_eq_mul_inv _ _
  power _ _ := rfl
  inverse_one := inv_one
  raise_zero := ExactField.power_zero
  raise_one := ExactField.power_one
  raise_two := ExactField.power_two

theorem slope_ofValues (assignment : Assignment K) (function : Elementary) (u : K) :
    (ofValues assignment).slope function u = ExactField.slope function u := by
  cases function <;> simp [slope, ofValues, ExactField.slope]

end

end Interpretation

end Formula.Node
