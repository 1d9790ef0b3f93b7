import Mathlib
import Formula.Proofs.Node.DualValue
import Formula.Proofs.Node.Folding

namespace Formula

/-! The value of a symbolic derivative.

The operations that fold zeros and ones have the value of the operation that they stand for; so
the tree that `derivative` makes is worth what the dual numbers compute.
-/

namespace Node

open Interpretation (ofValues slope_ofValues)

variable {K : Type} [ExactField K] [DecidableEq K] {assignment : Assignment K}

theorem value_of_isZero {node : Node K} (zero : node.isZero = true) : node.value assignment = 0 :=
  (ofValues assignment).meaning_of_isZero zero

theorem opposite_value (node : Node K) : node.opposite.value assignment = -node.value assignment :=
  (ofValues assignment).opposite node

theorem sum_value (left right : Node K) :
    (left.sum right).value assignment = left.value assignment + right.value assignment :=
  (ofValues assignment).sum left right

theorem difference_value (left right : Node K) :
    (left.difference right).value assignment = left.value assignment - right.value assignment :=
  (ofValues assignment).difference left right

theorem product_value (left right : Node K) :
    (left.product right).value assignment = left.value assignment * right.value assignment :=
  (ofValues assignment).product left right

theorem quotient_value (numerator denominator : Node K) :
    (numerator.quotient denominator).value assignment =
      numerator.value assignment / denominator.value assignment := by
  rw [div_eq_mul_inv]
  exact (ofValues assignment).quotient numerator denominator

theorem raised_value (base : Node K) (exponent : K) :
    (base.raised exponent).value assignment = ExactField.power (base.value assignment) exponent :=
  (ofValues assignment).raised base exponent

theorem raised_two_value (base : Node K) :
    (base.raised Scalar.two).value assignment = base.value assignment * base.value assignment :=
  (ofValues assignment).raised_two base

theorem chain_value (function : Elementary) (operand inner : Node K) :
    (chain function operand inner).value assignment =
      ExactField.slope function (operand.value assignment) * inner.value assignment := by
  rw [← slope_ofValues assignment]
  exact (ofValues assignment).chain function operand inner

/-- In exact arithmetic the derivative has the value that the dual numbers compute: whatever is
folded away on the way, and wherever the values of the variables were when the exponents were
read. -/
theorem derivative_value (tree : Node K) (fixed : tree.hasFixedExponents = true) (name : String)
    (present assignment : Assignment K) :
    (tree.derivative present name).value assignment = (tree.dualValue assignment name).snd := by
  induction tree with
  | constant value => rfl
  | var other =>
      simp only [derivative, dualValue, map, value, tangent]
      split <;> simp [value]
  | negation operand ih =>
      have inner := ih fixed
      have unfolded : ((negation operand).dualValue assignment name).snd =
          -(operand.dualValue assignment name).snd := rfl
      rw [unfolded, ← inner, derivative]
      split
      case isTrue zero => rw [value_of_isZero zero, neg_zero]; rfl
      case isFalse => exact opposite_value _
  | call function operand ih =>
      rw [dualValue_call_snd, ← ih fixed, derivative]
      split
      case isTrue zero => rw [value_of_isZero zero, mul_zero]; rfl
      case isFalse => exact chain_value _ _ _
  | binary operation left right leftIH rightIH =>
      simp only [hasFixedExponents, Bool.and_eq_true] at fixed
      have leftInner := leftIH fixed.1
      have rightInner := rightIH fixed.2
      cases operation with
      | add =>
          rw [derivative, sum_value, leftInner, rightInner]
          rfl
      | sub =>
          rw [derivative, difference_value, leftInner, rightInner]
          rfl
      | mul =>
          rw [derivative, sum_value, product_value, product_value, leftInner, rightInner,
            dualValue_mul_snd]
      | div =>
          rw [derivative, quotient_value, difference_value, product_value, product_value,
            raised_two_value, leftInner, rightInner, dualValue_div_snd]
  | power base exponent baseIH exponentIH =>
      simp only [hasFixedExponents, Bool.and_eq_true] at fixed
      -- The exponent has no `ε`, so the term with the logarithm is zero.
      rw [dualValue_power_snd, dualValue_snd_of_isConstant fixed.2, mul_zero, add_zero,
        ← baseIH fixed.1, derivative]
      split
      case isTrue zero => rw [value_of_isZero zero, mul_zero]; rfl
      case isFalse =>
        rw [product_value, product_value, raised_value,
          value_eq_of_isConstant fixed.2 present assignment]
        rfl

/-- `(x - 1) ^ 3 / cos x` has the derivative `3` at zero. -/
theorem derivative_value_quotient_of_cube :
    (binary .div (power (binary .sub (var "x") (constant 1)) (constant 3))
      (call .cos (var "x")) : Node ℝ).hasFixedExponents = true ∧
    ((binary .div (power (binary .sub (var "x") (constant 1)) (constant 3))
      (call .cos (var "x")) : Node ℝ).derivative (fun _ => 2) "x").value (fun _ => 0) = 3 := by
  have fixed : (binary .div (power (binary .sub (var "x") (constant 1)) (constant 3))
      (call .cos (var "x")) : Node ℝ).hasFixedExponents = true := rfl
  refine ⟨fixed, ?_⟩
  have base : ((binary .sub (var "x") (constant 1) : Node ℝ).value fun _ => 0) = -1 := zero_sub 1
  have square : ExactField.power (-1 : ℝ) (3 - 1) = 1 := by
    have two : (3 - 1 : ℝ) = 1 + 1 := by norm_num
    rw [two, ExactField.power_two, neg_one_mul, neg_neg]
  have direction : ((binary .sub (var "x") (constant 1) : Node ℝ).dualValue (fun _ => 0) "x").snd
      = 1 := by
    simp [dualValue, map, value, tangent, Scalar.arithmetic]
  have cosine : ((call .cos (var "x") : Node ℝ).value fun _ => 0) = 1 := Real.cos_zero
  have sine : ExactField.slope .cos ((var "x" : Node ℝ).value fun _ => 0) = 0 :=
    neg_eq_zero.mpr Real.sin_zero
  rw [derivative_value _ fixed, dualValue_div_snd, dualValue_power_snd, dualValue_call_snd, base,
    direction, cosine, sine, dualValue_snd_of_isConstant rfl, value, square]
  norm_num

end Node

end Formula
