import Mathlib
import Formula.Proofs.Node.Constancy
import Formula.Proofs.Scalar.Real

namespace Formula

open TrivSqZeroExt

/-! Expressions over dual numbers.

With `ε` added to one variable, the value of an expression has the derivative by that variable as
the coefficient of `ε`.
-/

namespace Node

def map {α β : Type} (convert : α → β) : Node α → Node β
  | constant value => constant (convert value)
  | var name => var name
  | negation operand => negation (operand.map convert)
  | call function operand => call function (operand.map convert)
  | binary operation left right => binary operation (left.map convert) (right.map convert)
  | power base exponent => power (base.map convert) (exponent.map convert)

section

variable {K : Type} [ExactField K] [DecidableEq K] {assignment : Assignment K}

/-- The variables in dual numbers: each is worth what it was, and one of them `ε` more. -/
def tangent (assignment : Assignment K) (name : String) : Assignment (DualNumber K) :=
  fun other => inl (assignment other) + if other = name then DualNumber.eps else 0

/-- The value over dual numbers in the direction of one variable. -/
def dualValue (assignment : Assignment K) (name : String) (node : Node K) : DualNumber K :=
  (node.map inl).value (tangent assignment name)

@[simp]
theorem dualValue_fst (node : Node K) (name : String) :
    (node.dualValue assignment name).fst = node.value assignment := by
  induction node with
  | constant value => rfl
  | var other =>
      simp only [dualValue, map, value, tangent]
      split <;> simp
  | negation operand ih => exact congrArg (- ·) ih
  | call function operand ih => exact congrArg (ExactField.elementary function) ih
  | binary operation left right leftIH rightIH =>
      rw [value, ← leftIH, ← rightIH]
      cases operation with
      | add => rfl
      | sub => rfl
      | mul => rfl
      | div => exact (div_eq_mul_inv _ _).symm
  | power base exponent baseIH exponentIH =>
      rw [value, ← baseIH, ← exponentIH]
      rfl

theorem dualValue_call_snd (function : Elementary) (operand : Node K) (name : String) :
    ((call function operand).dualValue assignment name).snd =
      ExactField.slope function (operand.value assignment) *
        (operand.dualValue assignment name).snd := by
  rw [← dualValue_fst operand name]
  rfl

theorem dualValue_mul_snd (left right : Node K) (name : String) :
    ((binary .mul left right).dualValue assignment name).snd =
      (left.dualValue assignment name).snd * right.value assignment +
        left.value assignment * (right.dualValue assignment name).snd := by
  rw [add_comm, ← dualValue_fst left name, ← dualValue_fst right name]
  rfl

theorem dualValue_div_snd (left right : Node K) (name : String) :
    ((binary .div left right).dualValue assignment name).snd =
      ((left.dualValue assignment name).snd * right.value assignment -
        left.value assignment * (right.dualValue assignment name).snd) /
          (right.value assignment * right.value assignment) := by
  have unfolded : ((binary .div left right).dualValue assignment name).snd =
      (left.dualValue assignment name * (right.dualValue assignment name)⁻¹).snd := rfl
  rw [unfolded, DualNumber.snd_mul, snd_inv, fst_inv, dualValue_fst, dualValue_fst, smul_eq_mul,
    op_smul_eq_mul]
  by_cases zero : right.value assignment = 0
  · simp [zero]
  · field_simp
    ring

theorem dualValue_power_snd (base exponent : Node K) (name : String) :
    ((power base exponent).dualValue assignment name).snd =
      exponent.value assignment *
          ExactField.power (base.value assignment) (exponent.value assignment - 1) *
          (base.dualValue assignment name).snd +
        ExactField.elementary .log (base.value assignment) *
          ExactField.power (base.value assignment) (exponent.value assignment) *
          (exponent.dualValue assignment name).snd := by
  rw [← dualValue_fst base name, ← dualValue_fst exponent name]
  rfl

theorem dualValue_snd_of_isConstant {node : Node K} (fixed : node.isConstant = true)
    (name : String) : (node.dualValue assignment name).snd = 0 := by
  induction node with
  | constant value => rfl
  | var other => simp [isConstant] at fixed
  | negation operand ih => exact neg_eq_zero.mpr (ih fixed)
  | call function operand ih => rw [dualValue_call_snd, ih fixed, mul_zero]
  | binary operation left right leftIH rightIH =>
      simp only [isConstant, Bool.and_eq_true] at fixed
      have leftZero := leftIH fixed.1
      have rightZero := rightIH fixed.2
      cases operation with
      | add => exact (congrArg₂ (· + ·) leftZero rightZero).trans (add_zero 0)
      | sub => exact (congrArg₂ (· - ·) leftZero rightZero).trans (sub_zero 0)
      | mul => rw [dualValue_mul_snd, leftZero, rightZero, zero_mul, mul_zero, add_zero]
      | div => rw [dualValue_div_snd, leftZero, rightZero, zero_mul, mul_zero, sub_zero, zero_div]
  | power base exponent baseIH exponentIH =>
      simp only [isConstant, Bool.and_eq_true] at fixed
      rw [dualValue_power_snd, baseIH fixed.1, exponentIH fixed.2, mul_zero, mul_zero, add_zero]

end

/-- Where every operation of the expression has a derivative. -/
def IsSmoothAt (assignment : Assignment ℝ) : Node ℝ → Prop
  | constant _ | var _ => True
  | negation operand => operand.IsSmoothAt assignment
  | call function operand =>
      operand.IsSmoothAt assignment ∧ function.IsSmoothAt (operand.value assignment)
  | binary operation left right =>
      left.IsSmoothAt assignment ∧ right.IsSmoothAt assignment ∧
        (operation = .div → right.value assignment ≠ 0)
  | power base exponent =>
      base.IsSmoothAt assignment ∧
        (base.value assignment ≠ 0 ∨ 1 ≤ exponent.value assignment)

/-- Over the real numbers the coefficient of `ε` is the derivative of calculus. -/
theorem hasDerivAt_value (tree : Node ℝ) (fixed : tree.hasFixedExponents = true) (name : String)
    {assignment : Assignment ℝ} (smooth : tree.IsSmoothAt assignment) :
    HasDerivAt (fun x => tree.value (Function.update assignment name x))
      (tree.dualValue assignment name).snd (assignment name) := by
  have here (node : Node ℝ) :
      node.value (Function.update assignment name (assignment name)) = node.value assignment := by
    rw [Function.update_eq_self]
  induction tree with
  | constant value => exact hasDerivAt_const _ _
  | var other =>
      by_cases same : other = name
      · subst same
        simpa [value, dualValue, map, tangent] using hasDerivAt_id' (assignment other)
      · simpa [value, dualValue, map, tangent, same, Function.update_of_ne same] using
          hasDerivAt_const (assignment name) (assignment other)
  | negation operand ih => exact (ih fixed smooth).neg
  | call function operand ih =>
      rw [dualValue_call_snd]
      have inner := ih fixed smooth.1
      have outer := ExactField.hasDerivAt_slope smooth.2
      exact outer.comp_of_eq (assignment name) inner (here operand).symm
  | binary operation left right leftIH rightIH =>
      simp only [hasFixedExponents, Bool.and_eq_true] at fixed
      have leftDeriv := leftIH fixed.1 smooth.1
      have rightDeriv := rightIH fixed.2 smooth.2.1
      cases operation with
      | add => exact leftDeriv.add rightDeriv
      | sub => exact leftDeriv.sub rightDeriv
      | mul =>
          rw [dualValue_mul_snd]
          exact (leftDeriv.mul rightDeriv).congr_deriv (by rw [here, here])
      | div =>
          rw [dualValue_div_snd, ← sq]
          have nonzero := smooth.2.2 rfl
          rw [← here right] at nonzero
          exact (leftDeriv.div rightDeriv nonzero).congr_deriv (by rw [here, here])
  | power base exponent baseIH exponentIH =>
      simp only [hasFixedExponents, Bool.and_eq_true] at fixed
      rw [dualValue_power_snd, dualValue_snd_of_isConstant fixed.2, mul_zero, add_zero]
      have baseDeriv := baseIH fixed.1 smooth.1
      have defined := smooth.2
      rw [← here base] at defined
      have constant (x : ℝ) :
          (power base exponent).value (Function.update assignment name x) =
            base.value (Function.update assignment name x) ^ exponent.value assignment := by
        rw [value, value_eq_of_isConstant fixed.2 _ assignment]
        rfl
      simp only [constant]
      refine (baseDeriv.rpow_const defined).congr_deriv ?_
      rw [here, mul_comm (TrivSqZeroExt.snd _), mul_right_comm]
      rfl

end Node

end Formula
