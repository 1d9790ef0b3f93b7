import Mathlib
import Formula.Proofs.Node.DualValue
import Formula.Proofs.Node.Folding
import Formula.Proofs.Node.Heredity

namespace Formula

open TrivSqZeroExt

/-! Second derivatives.

The derivative of a tree is again a tree, so its rate in another variable is read off its dual
number. That rate has a formula in which the two variables play the same part.
-/

namespace ExactField

variable {K : Type} [ExactField K]

/-- The second derivatives of the elementary functions, whose first ones are `slope`. -/
def curvature : Elementary → K → K
  | .sin, u => -elementary .sin u
  | .cos, u => -elementary .cos u
  | .tan, u =>
      (elementary .sin u * elementary .cos u + elementary .cos u * elementary .sin u) /
        (elementary .cos u * elementary .cos u) / (elementary .cos u * elementary .cos u)
  | .asin, u =>
      slope .sqrt (1 - u * u) * (u + u) / elementary .sqrt (1 - u * u) /
        elementary .sqrt (1 - u * u)
  | .acos, u =>
      -(slope .sqrt (1 - u * u) * (u + u) / elementary .sqrt (1 - u * u) /
        elementary .sqrt (1 - u * u))
  | .atan, u => -(u + u) / (1 + u * u) / (1 + u * u)
  | .log, u => -1 / u / u
  | .sqrt, u =>
      -((1 + 1) * slope .sqrt u) / ((1 + 1) * elementary .sqrt u) /
        ((1 + 1) * elementary .sqrt u)
  | .exp, u => elementary .exp u

end ExactField

namespace Node

variable {K : Type} [ExactField K] [DecidableEq K] {assignment : Assignment K}

namespace Interpretation

variable {direction : String}

/-- The dual numbers in the direction of a variable. -/
def ofDuals (assignment : Assignment K) (direction : String) :
    Interpretation K (DualNumber K) where
  meaning := dualValue assignment direction
  embed := inlHom K K
  inverse u := u⁻¹
  elementary function u :=
    (ExactField.elementary function u.fst, ExactField.slope function u.fst * u.snd)
  raise base exponent := (ExactField.power base.fst exponent,
    exponent * ExactField.power base.fst (exponent - 1) * base.snd)
  constant _ := rfl
  negation _ := rfl
  call _ _ := rfl
  add _ _ := rfl
  sub _ _ := rfl
  mul _ _ := rfl
  div _ _ := rfl
  power base exponent := by
    refine TrivSqZeroExt.ext rfl ?_
    have still : ((Node.constant exponent).dualValue assignment direction).snd = 0 := rfl
    rw [dualValue_power_snd, still, mul_zero, add_zero, ← dualValue_fst base direction]
    rfl
  inverse_one := TrivSqZeroExt.inv_one
  raise_zero base := TrivSqZeroExt.ext (ExactField.power_zero _) (by simp)
  raise_one base := TrivSqZeroExt.ext (ExactField.power_one _) (by simp [ExactField.power_zero])
  raise_two base := by
    refine TrivSqZeroExt.ext (ExactField.power_two _) ?_
    simp [ExactField.power_one]
    ring

@[simp]
theorem ofDuals_inverse (u : DualNumber K) : (ofDuals assignment direction).inverse u = u⁻¹ := rfl

@[simp]
theorem fst_ofDuals_elementary (function : Elementary) (u : DualNumber K) :
    ((ofDuals assignment direction).elementary function u).fst =
      ExactField.elementary function u.fst := rfl

@[simp]
theorem snd_ofDuals_elementary (function : Elementary) (u : DualNumber K) :
    ((ofDuals assignment direction).elementary function u).snd =
      ExactField.slope function u.fst * u.snd := rfl

@[simp]
theorem fst_ofDuals_slope (function : Elementary) (u : DualNumber K) :
    ((ofDuals assignment direction).slope function u).fst = ExactField.slope function u.fst := by
  cases function <;> simp [slope, ExactField.slope]

@[simp]
theorem snd_ofDuals_slope (function : Elementary) (u : DualNumber K) :
    ((ofDuals assignment direction).slope function u).snd =
      ExactField.curvature function u.fst * u.snd := by
  cases function with
  | sin => simp [slope, ExactField.slope, ExactField.curvature]
  | cos => simp [slope, ExactField.slope, ExactField.curvature]
  | exp => simp [slope, ExactField.slope, ExactField.curvature]
  | tan => simp [slope, ExactField.slope, ExactField.curvature]; ring
  | asin => simp [slope, ExactField.slope, ExactField.curvature]; ring
  | acos => simp [slope, ExactField.slope, ExactField.curvature]; ring
  | atan => simp [slope, ExactField.curvature]; ring
  | log => simp [slope, ExactField.curvature]; ring
  | sqrt => simp [slope, ExactField.slope, ExactField.curvature]; ring

end Interpretation

/-- How fast the value changes with a variable. -/
def rate (assignment : Assignment K) (direction : String) (node : Node K) : K :=
  (node.dualValue assignment direction).snd

/-- How fast the rate in one variable changes with another one, by the rules of a calculus
textbook. -/
def mixedRate (assignment : Assignment K) (first second : String) : Node K → K
  | constant _ | var _ => 0
  | negation operand => -operand.mixedRate assignment first second
  | call function operand =>
      let u := operand.value assignment
      ExactField.slope function u * operand.mixedRate assignment first second +
        ExactField.curvature function u *
          (operand.rate assignment first * operand.rate assignment second)
  | binary operation left right =>
      let u := left.value assignment
      let v := right.value assignment
      let leftMixed := left.mixedRate assignment first second
      let rightMixed := right.mixedRate assignment first second
      let crossed := left.rate assignment first * right.rate assignment second +
        left.rate assignment second * right.rate assignment first
      match operation with
      | .add => leftMixed + rightMixed
      | .sub => leftMixed - rightMixed
      | .mul => leftMixed * v + crossed + u * rightMixed
      | .div =>
          leftMixed / v - (crossed + u * rightMixed) / (v * v) +
            (1 + 1) * u * (right.rate assignment first * right.rate assignment second) /
              (v * v * v)
  | power base exponent =>
      let u := base.value assignment
      let n := exponent.value assignment
      n * ExactField.power u (n - 1) * base.mixedRate assignment first second +
        n * ((n - 1) * ExactField.power u (n - 1 - 1)) *
          (base.rate assignment first * base.rate assignment second)

theorem mixedRate_comm (tree : Node K) (first second : String) :
    tree.mixedRate assignment first second = tree.mixedRate assignment second first := by
  induction tree with
  | constant value => rfl
  | var name => rfl
  | negation operand ih => rw [mixedRate, ih, mixedRate]
  | call function operand ih => simp only [mixedRate, ih, mul_comm]
  | binary operation left right leftIH rightIH =>
      cases operation <;> simp only [mixedRate, leftIH, rightIH, mul_comm, add_comm]
  | power base exponent baseIH _ => simp only [mixedRate, baseIH, mul_comm]

theorem snd_quotientRule (u u' v v' : DualNumber K) :
    ((u' * v - u * v') * (v * v)⁻¹).snd =
      u'.snd / v.fst - (u'.fst * v.snd + u.snd * v'.fst + u.fst * v'.snd) / (v.fst * v.fst) +
        (1 + 1) * u.fst * (v'.fst * v.snd) / (v.fst * v.fst * v.fst) := by
  simp only [DualNumber.snd_mul, snd_sub, snd_inv, fst_sub, fst_mul, fst_inv, smul_eq_mul,
    op_smul_eq_mul]
  by_cases zero : v.fst = 0
  · simp [zero]
  · field_simp
    ring

/-- The dual number of a derivative: its value is the rate in the one direction, its own rate in
another direction the mixed one. -/
theorem dualValue_derivative (tree : Node K) (fixed : tree.hasFixedExponents = true)
    (present assignment : Assignment K) (first second : String) :
    ((tree.derivative present first).dualValue assignment second).fst = tree.rate assignment first ∧
      ((tree.derivative present first).dualValue assignment second).snd =
        tree.mixedRate assignment first second := by
  -- Both parts in one induction: the rate of a product takes the values of its factors.
  let duals := Interpretation.ofDuals assignment second
  induction tree with
  | constant value => exact ⟨rfl, rfl⟩
  | var other =>
      by_cases same : other = first
      · simp [derivative, rate, mixedRate, dualValue, map, value, tangent, same]
      · simp [derivative, rate, mixedRate, dualValue, map, value, tangent, same]
  | negation operand ih =>
      have rule : ((negation operand).derivative present first).dualValue assignment second =
          -(operand.derivative present first).dualValue assignment second :=
        duals.derivative_negation present first operand
      obtain ⟨inner, mixed⟩ := ih fixed
      rw [rule, fst_neg, snd_neg, inner, mixed]
      exact ⟨rfl, rfl⟩
  | call function operand ih =>
      have rule : ((call function operand).derivative present first).dualValue assignment second =
          duals.slope function (operand.dualValue assignment second) *
            (operand.derivative present first).dualValue assignment second :=
        duals.derivative_call present first function operand
      obtain ⟨inner, mixed⟩ := ih fixed
      rw [rule, fst_mul, DualNumber.snd_mul, Interpretation.fst_ofDuals_slope,
        Interpretation.snd_ofDuals_slope, dualValue_fst, inner, mixed]
      constructor
      · exact (dualValue_call_snd function operand first).symm
      · simp only [mixedRate, rate]
        ring
  | binary operation left right leftIH rightIH =>
      simp only [hasFixedExponents, Bool.and_eq_true] at fixed
      obtain ⟨leftInner, leftMixed⟩ := leftIH fixed.1
      obtain ⟨rightInner, rightMixed⟩ := rightIH fixed.2
      cases operation with
      | add =>
          have rule : ((binary .add left right).derivative present first).dualValue assignment
              second = (left.derivative present first).dualValue assignment second +
                (right.derivative present first).dualValue assignment second :=
            duals.derivative_add present first left right
          rw [rule, fst_add, snd_add, leftInner, leftMixed, rightInner, rightMixed]
          exact ⟨rfl, rfl⟩
      | sub =>
          have rule : ((binary .sub left right).derivative present first).dualValue assignment
              second = (left.derivative present first).dualValue assignment second -
                (right.derivative present first).dualValue assignment second :=
            duals.derivative_sub present first left right
          rw [rule, fst_sub, snd_sub, leftInner, leftMixed, rightInner, rightMixed]
          exact ⟨rfl, rfl⟩
      | mul =>
          have rule : ((binary .mul left right).derivative present first).dualValue assignment
              second = (left.derivative present first).dualValue assignment second *
                  right.dualValue assignment second + left.dualValue assignment second *
                  (right.derivative present first).dualValue assignment second :=
            duals.derivative_mul present first left right
          rw [rule, fst_add, snd_add, fst_mul, fst_mul, DualNumber.snd_mul, DualNumber.snd_mul,
            leftInner, leftMixed, rightInner, rightMixed, dualValue_fst, dualValue_fst]
          constructor
          · exact (dualValue_mul_snd left right first).symm
          · simp only [mixedRate, rate]
            ring
      | div =>
          have rule : ((binary .div left right).derivative present first).dualValue assignment
              second = ((left.derivative present first).dualValue assignment second *
                  right.dualValue assignment second - left.dualValue assignment second *
                  (right.derivative present first).dualValue assignment second) *
                (right.dualValue assignment second * right.dualValue assignment second)⁻¹ :=
            duals.derivative_div present first left right
          rw [rule]
          constructor
          · rw [fst_mul, fst_sub, fst_mul, fst_mul, fst_inv, fst_mul, leftInner, rightInner,
              dualValue_fst, dualValue_fst, ← div_eq_mul_inv]
            exact (dualValue_div_snd left right first).symm
          · rw [snd_quotientRule, leftInner, rightInner, leftMixed, rightMixed, dualValue_fst,
              dualValue_fst]
            rfl
  | power base exponent baseIH _ =>
      simp only [hasFixedExponents, Bool.and_eq_true] at fixed
      obtain ⟨inner, mixed⟩ := baseIH fixed.1
      have rule : ((power base exponent).derivative present first).dualValue assignment second =
          inl (exponent.value present) * duals.raise (base.dualValue assignment second)
              (exponent.value present - 1) *
            (base.derivative present first).dualValue assignment second :=
        duals.derivative_power present first base exponent
      have still : (exponent.dualValue assignment first).snd = 0 :=
        dualValue_snd_of_isConstant fixed.2 first
      rw [rule, value_eq_of_isConstant fixed.2 present assignment]
      constructor
      · rw [rate, dualValue_power_snd, still, mul_zero, add_zero, fst_mul, fst_mul, inner]
        simp only [duals, Interpretation.ofDuals, fst_inl, dualValue_fst, fst_mk, rate]
      · rw [DualNumber.snd_mul, DualNumber.snd_mul, fst_mul, inner, mixed]
        simp only [duals, Interpretation.ofDuals, fst_inl, snd_inl, dualValue_fst, fst_mk, snd_mk,
          mixedRate, rate]
        ring

theorem value_second_derivative (tree : Node K) (fixed : tree.hasFixedExponents = true)
    (present : Assignment K) (first second : String) :
    ((tree.derivative present first).derivative present second).value assignment =
      tree.mixedRate assignment first second := by
  have firstFixed : (tree.derivative present first).hasFixedExponents = true :=
    isHereditary_hasFixedExponents.derivative fixed present first
  have outer := (dualValue_derivative (tree.derivative present first) firstFixed present assignment
    second second).1
  rw [dualValue_fst] at outer
  rw [outer, rate, (dualValue_derivative tree fixed present assignment first second).2]

theorem hessian_entry {α : Type} [Scalar α] (tree : Node α) (present : Assignment α)
    (names : List String) {row column : Nat} (inRows : row < names.length)
    (inColumns : column < names.length) :
    (tree.hessian present names)[row]?.bind (·[column]?) =
      some ((tree.derivative present names[row]).derivative present names[column]) := by
  simp [hessian, gradient, inRows, inColumns]

/-- Second derivatives may be taken in either order: the trees differ in general, but not in exact
arithmetic. -/
theorem hessian_symmetric (tree : Node K) (fixed : tree.hasFixedExponents = true)
    (present assignment : Assignment K) (names : List String) {row column : Nat}
    (inRows : row < names.length) (inColumns : column < names.length) :
    ∃ entry mirrored,
      (tree.hessian present names)[row]?.bind (·[column]?) = some entry ∧
        (tree.hessian present names)[column]?.bind (·[row]?) = some mirrored ∧
        entry.value assignment = mirrored.value assignment := by
  refine ⟨_, _, hessian_entry tree present names inRows inColumns,
    hessian_entry tree present names inColumns inRows, ?_⟩
  rw [value_second_derivative tree fixed, value_second_derivative tree fixed, mixedRate_comm]

/-- The two mixed derivatives of `sin (x * y)` are worth the same, but spelled differently. -/
theorem hessian_symmetric_sine_of_product :
    (call .sin (binary .mul (var "x") (var "y")) : Node ℝ).hasFixedExponents = true ∧
      ∃ entry mirrored,
        ((call .sin (binary .mul (var "x") (var "y")) : Node ℝ).hessian (fun _ => 1)
          ["x", "y"])[0]?.bind (·[1]?) = some entry ∧
        ((call .sin (binary .mul (var "x") (var "y")) : Node ℝ).hessian (fun _ => 1)
          ["x", "y"])[1]?.bind (·[0]?) = some mirrored ∧
        entry ≠ mirrored ∧ entry.value (fun _ => 2) = mirrored.value (fun _ => 2) := by
  have fixed : (call .sin (binary .mul (var "x") (var "y")) : Node ℝ).hasFixedExponents = true :=
    rfl
  obtain ⟨entry, mirrored, isEntry, isMirrored, same⟩ :=
    hessian_symmetric _ fixed (fun _ => 1) (fun _ => 2) ["x", "y"]
      (show 0 < ["x", "y"].length by decide) (show 1 < ["x", "y"].length by decide)
  refine ⟨fixed, entry, mirrored, isEntry, isMirrored, ?_, same⟩
  rintro rfl
  have equal := isEntry.trans isMirrored.symm
  simp [hessian, gradient, derivative, chain, product, sum, opposite, isZero, isOne,
    asConstant] at equal

end Node

end Formula
