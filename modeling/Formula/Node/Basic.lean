import Formula.Scalar.Basic

namespace Formula

/-! Expression trees. A variable is a leaf with a name; what it is worth says an assignment. -/

/-- An expression over constants of type `α`. -/
inductive Node (α : Type) where
  | constant (value : α)
  | var (name : String)
  | negation (operand : Node α)
  | call (function : Elementary) (operand : Node α)
  | binary (operation : Arithmetic) (left right : Node α)
  | power (base exponent : Node α)
deriving Repr, DecidableEq

/-- The values of variables, by name. -/
abbrev Assignment (α : Type) := String → α

namespace Node

variable {α : Type}

/-- The constant that the node is, if it is one. -/
def asConstant : Node α → Option α
  | constant value => some value
  | _ => none

def value [Scalar α] (assignment : Assignment α) : Node α → α
  | constant value => value
  | var name => assignment name
  | negation operand => -operand.value assignment
  | call function operand => Scalar.elementary function (operand.value assignment)
  | binary operation left right =>
      Scalar.arithmetic operation (left.value assignment) (right.value assignment)
  | power base exponent => Scalar.power (base.value assignment) (exponent.value assignment)

def isConstant : Node α → Bool
  | constant _ => true
  | var _ => false
  | negation operand | call _ operand => operand.isConstant
  | binary _ left right | power left right => left.isConstant && right.isConstant

def contains (name : String) : Node α → Bool
  | constant _ => false
  | var other => other == name
  | negation operand | call _ operand => operand.contains name
  | binary _ left right | power left right => left.contains name || right.contains name

def size : Node α → Nat
  | constant _ | var _ => 1
  | negation operand | call _ operand => 1 + operand.size
  | binary _ left right | power left right => 1 + left.size + right.size

/-- The number of nodes on the longest way down. -/
def depth : Node α → Nat
  | constant _ | var _ => 1
  | negation operand | call _ operand => 1 + operand.depth
  | binary _ left right | power left right => 1 + max left.depth right.depth

end Node

end Formula
