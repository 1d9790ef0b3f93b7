import Formula.Proofs.Node.Composition
import Formula.Proofs.Node.Constancy

namespace Formula.Node

/-! Properties that an expression passes on to its derivatives.

A derivative is composed of parts of the expression and of constants, with constants as the only new
exponents. So it keeps whatever an expression has just when its parts have it.
-/

variable {α : Type}

/-- A property that is one of the parts of an expression. Of an exponent it is only asked that a
constant is harmless. -/
structure IsHereditary (property : Node α → Prop) : Prop where
  constant (value : α) : property (constant value)
  negation (operand : Node α) : property (negation operand) ↔ property operand
  call (function : Elementary) (operand : Node α) :
    property (call function operand) ↔ property operand
  binary (operation : Arithmetic) (left right : Node α) :
    property (binary operation left right) ↔ property left ∧ property right
  base {base exponent : Node α} (holds : property (power base exponent)) : property base
  power {base : Node α} (holds : property base) (exponent : α) :
    property (power base (.constant exponent))

theorem isHereditary_hasFixedExponents :
    IsHereditary fun node : Node α => node.hasFixedExponents = true where
  constant _ := rfl
  negation _ := Iff.rfl
  call _ _ := Iff.rfl
  binary _ _ _ := Bool.and_eq_true_iff
  base holds := (Bool.and_eq_true_iff.mp holds).1
  power holds _ := Bool.and_eq_true_iff.mpr ⟨holds, rfl⟩

theorem isHereditary_hasLiteralExponents :
    IsHereditary fun node : Node α => node.hasLiteralExponents = true where
  constant _ := rfl
  negation _ := Iff.rfl
  call _ _ := Iff.rfl
  binary _ _ _ := Bool.and_eq_true_iff
  base holds := (Bool.and_eq_true_iff.mp holds).1
  power holds _ := Bool.and_eq_true_iff.mpr ⟨holds, rfl⟩

namespace IsHereditary

variable {property : Node α → Prop} (hereditary : IsHereditary property) {tree : Node α}

include hereditary

theorem forall_mem_parts (holds : property tree) : ∀ part ∈ tree.parts, property part :=
  Node.forall_mem_parts (hereditary.negation _).mp (hereditary.call _ _).mp
    (hereditary.binary _ _ _).mp hereditary.base holds

variable [Scalar α]

protected theorem composed (holds : property tree) {node : Node α} (made : Composed tree node) :
    property node := by
  induction made with
  | constant value => exact hereditary.constant value
  | part within => exact hereditary.forall_mem_parts holds _ within
  | negation _ _ ih => exact (hereditary.negation _).mpr ih
  | call function _ ih => exact (hereditary.call _ _).mpr ih
  | binary operation _ _ _ first second => exact (hereditary.binary _ _ _).mpr ⟨first, second⟩
  | power exponent _ _ ih => exact hereditary.power ih exponent
  | besideOne _ _ ih => exact (hereditary.binary _ _ _).mpr ⟨hereditary.constant 1, ih⟩

protected theorem derivative (holds : property tree) (present : Assignment α) (name : String) :
    property (tree.derivative present name) :=
  hereditary.composed holds (composed_derivative tree present name)

end IsHereditary

section

variable [Scalar α]

/-- Differentiate by one variable after the other. The variables may get other values in between. -/
def repeatedDerivative (tree : Node α) (steps : List (Assignment α × String)) : Node α :=
  steps.foldl (fun reached step => reached.derivative step.1 step.2) tree

/-- What one derivative keeps, the derivatives of every order keep. -/
theorem repeatedDerivative_induction {property : Node α → Prop}
    (step : ∀ tree : Node α, property tree → ∀ present name,
      property (tree.derivative present name))
    {tree : Node α} (holds : property tree) (steps : List (Assignment α × String)) :
    property (tree.repeatedDerivative steps) := by
  induction steps generalizing tree with
  | nil => exact holds
  | cons first rest ih => exact ih (step tree holds first.1 first.2)

theorem IsHereditary.repeatedDerivative {property : Node α → Prop}
    (hereditary : IsHereditary property) {tree : Node α} (holds : property tree)
    (steps : List (Assignment α × String)) : property (tree.repeatedDerivative steps) :=
  repeatedDerivative_induction (fun _ => hereditary.derivative) holds steps

end

end Formula.Node
