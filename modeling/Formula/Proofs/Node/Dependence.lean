import Formula.Proofs.Node.Heredity
import Formula.Scalar.Numeral

namespace Formula.Node

/-! The variables that a derivative depends on.

By a variable that does not occur the derivative is zero, and not only in value: each rule makes the
constant zero from the zeros of its operands, so no operand is evaluated, and none is left.
-/

variable {α : Type}

theorem isHereditary_not_contains (name : String) :
    IsHereditary fun node : Node α => node.contains name = false where
  constant _ := rfl
  negation _ := Iff.rfl
  call _ _ := Iff.rfl
  binary _ _ _ := Bool.or_eq_false_iff
  base absent := (Bool.or_eq_false_iff.mp absent).1
  power absent _ := Bool.or_eq_false_iff.mpr ⟨absent, rfl⟩

variable [Scalar α]

theorem contains_of_contains_derivative {tree : Node α} {present : Assignment α}
    {name other : String} (contained : (tree.derivative present name).contains other = true) :
    tree.contains other = true := by
  refine eq_true_of_ne_false fun absent => ?_
  cases ((isHereditary_not_contains other).derivative absent present name).symm.trans contained

section

variable (zero : ((0 : α) == 0) = true)

include zero

theorem isZero_zero : (constant (0 : α)).isZero = true := by
  simp [isZero, asConstant, zero]

theorem derivative_eq_zero {tree : Node α} {name : String} (absent : tree.contains name = false)
    (present : Assignment α) : tree.derivative present name = .constant 0 := by
  have folded := isZero_zero zero
  induction tree with
  | constant value => rfl
  | var other =>
      have different : other ≠ name := beq_eq_false_iff_ne.mp absent
      rw [derivative, if_neg different]
  | negation operand ih => rw [derivative, ih absent, if_pos folded]
  | call function operand ih => rw [derivative, ih absent, if_pos folded]
  | binary operation left right leftIH rightIH =>
      obtain ⟨first, second⟩ := Bool.or_eq_false_iff.mp absent
      have leftPart : (constant 0).product right = constant 0 := by simp [product, folded]
      have rightPart : left.product (constant 0) = constant 0 := by simp [product, folded]
      have sum : (constant (0 : α)).sum (constant 0) = constant 0 := if_pos folded
      have difference : (constant (0 : α)).difference (constant 0) = constant 0 := if_pos folded
      simp only [derivative, leftIH first, rightIH second]
      cases operation with
      | add => exact sum
      | sub => exact difference
      | mul => rw [leftPart, rightPart, sum]
      | div =>
          rw [leftPart, rightPart, difference]
          exact if_pos folded
  | power base exponent baseIH _ =>
      obtain ⟨first, -⟩ := Bool.or_eq_false_iff.mp absent
      rw [derivative, baseIH first, if_pos folded]

end

/-- A derivative has no variable that the expression does not have. By a variable that the
expression does not have it is the constant zero. -/
theorem derivative_depends_on_variables (zero : ((0 : α) == 0) = true) (tree : Node α)
    (present : Assignment α) (name : String) :
    (∀ other, (tree.derivative present name).contains other = true →
      tree.contains other = true) ∧
    (tree.contains name = false → tree.derivative present name = .constant 0) :=
  ⟨fun _ => contains_of_contains_derivative, fun absent => derivative_eq_zero zero absent present⟩

/-- Neither a not-a-number nor an infinity is left in the derivative by `w`, and the zero is the
positive one. -/
theorem derivative_depends_on_variables_of_special_numbers :
    let tree (α : Type) [Scalar α] : Node α :=
      .binary .sub (.binary .div (.constant (0 / 0)) (.var "x"))
        (.power (.negation (.binary .mul (.constant (1 / 0)) (.var "y"))) (.constant (0 / 0)))
    let byX := (tree Float).derivative (fun _ => 0) "x"
    (((0 : Float) == 0) = true ∧ ((0 : Float32) == 0) = true) ∧
      byX.contains "x" = true ∧ (tree Float).contains "x" = true ∧
      (tree Float).derivative (fun _ => 0) "w" = .constant 0 ∧ (0 : Float).toBits = 0 ∧
      (tree Float32).derivative (fun _ => 0) "w" = .constant 0 ∧ (0 : Float32).toBits = 0 := by
  intro tree byX
  have zero : ((0 : Float) == 0) = true := by decide +kernel
  have zero' : ((0 : Float32) == 0) = true := by decide +kernel
  have inDerivative : byX.contains "x" = true := by decide +kernel
  obtain ⟨contained, -⟩ := derivative_depends_on_variables zero (tree Float) (fun _ => 0) "x"
  obtain ⟨-, double⟩ := derivative_depends_on_variables zero (tree Float) (fun _ => 0) "w"
  obtain ⟨-, single⟩ := derivative_depends_on_variables zero' (tree Float32) (fun _ => 0) "w"
  exact ⟨⟨zero, zero'⟩, inDerivative, contained "x" inDerivative, double rfl, by decide +kernel,
    single rfl, by decide +kernel⟩

end Formula.Node
