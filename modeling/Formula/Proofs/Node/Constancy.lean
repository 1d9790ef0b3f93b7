import Formula.Node.Basic

namespace Formula

/-! Expressions without a variable, alone and as exponents. -/

namespace Node

variable {α : Type}

theorem value_eq_of_isConstant [Scalar α] {node : Node α} (fixed : node.isConstant = true)
    (first second : Assignment α) : node.value first = node.value second := by
  induction node with
  | constant value => rfl
  | var name => simp [isConstant] at fixed
  | negation operand ih => simp only [value, ih fixed]
  | call function operand ih => simp only [value, ih fixed]
  | binary operation left right leftIH rightIH =>
      simp only [isConstant, Bool.and_eq_true] at fixed
      simp only [value, leftIH fixed.1, rightIH fixed.2]
  | power base exponent baseIH exponentIH =>
      simp only [isConstant, Bool.and_eq_true] at fixed
      simp only [value, baseIH fixed.1, exponentIH fixed.2]

/-- Whether no exponent in the expression has a variable. -/
def hasFixedExponents : Node α → Bool
  | constant _ | var _ => true
  | negation operand | call _ operand => operand.hasFixedExponents
  | binary _ left right => left.hasFixedExponents && right.hasFixedExponents
  | power base exponent => base.hasFixedExponents && exponent.isConstant

/-- Whether every exponent in the expression is a constant. -/
def hasLiteralExponents : Node α → Bool
  | constant _ | var _ => true
  | negation operand | call _ operand => operand.hasLiteralExponents
  | binary _ left right => left.hasLiteralExponents && right.hasLiteralExponents
  | power base exponent => base.hasLiteralExponents && exponent.asConstant.isSome

end Node

end Formula
