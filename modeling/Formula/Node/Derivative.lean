import Formula.Node.Basic

namespace Formula

/-! Derivatives of expressions.

The rules build their results with operations that fold zeros and ones at once: `0 + u`, `1 * u`,
`u ^ 1`. Only exact zeros and ones fold, and the operands that are given stay as they are.
-/

namespace Node

variable {α : Type} [Scalar α]

/-- Whether the node is the constant zero, of either sign. -/
def isZero (node : Node α) : Bool := node.asConstant.any (· == 0)

def isOne (node : Node α) : Bool := node.asConstant.any (· == 1)

/-- The node negated; a constant changes its sign. -/
def opposite : Node α → Node α
  | constant value => constant (-value)
  | node => negation node

/-- The sum, without an operand that is zero. -/
def sum (left right : Node α) : Node α :=
  if left.isZero then right
  else if right.isZero then left
  else binary .add left right

/-- The difference, without an operand that is zero. -/
def difference (left right : Node α) : Node α :=
  if right.isZero then left
  else if left.isZero then right.opposite
  else binary .sub left right

/-- The product: zero with a factor that is zero, and without a factor that is one. -/
def product (left right : Node α) : Node α :=
  if left.isZero || right.isZero then constant 0
  else if left.isOne then right
  else if right.isOne then left
  else binary .mul left right

/-- The quotient: zero for a numerator that is zero, and without a denominator that is one. -/
def quotient (numerator denominator : Node α) : Node α :=
  if numerator.isZero then constant 0
  else if denominator.isOne then numerator
  else binary .div numerator denominator

/-- A base to a constant exponent: one for zero, the base for one. -/
def raised (base : Node α) (exponent : α) : Node α :=
  if exponent == 0 then constant 1
  else if exponent == 1 then base
  else power base (constant exponent)

def rootOfComplement (operand : Node α) : Node α :=
  call .sqrt (binary .sub (constant 1) (operand.raised Scalar.two))

/-- The chain rule: the derivative of a function of `operand`, whose derivative is `inner`. -/
def chain (function : Elementary) (operand inner : Node α) : Node α :=
  match function with
  | .sin => (call .cos operand).product inner
  | .cos => (call .sin operand).opposite.product inner
  | .tan => inner.quotient ((call .cos operand).raised Scalar.two)
  | .asin => inner.quotient operand.rootOfComplement
  | .acos => (inner.quotient operand.rootOfComplement).opposite
  | .atan => inner.quotient (binary .add (constant 1) (operand.raised Scalar.two))
  | .log => inner.quotient operand
  | .sqrt => inner.quotient ((constant Scalar.two).product (call .sqrt operand))
  | .exp => (call .exp operand).product inner

/-- The derivative by the variable `name`. An exponent counts as the constant that it is worth
under the assignment. -/
def derivative (assignment : Assignment α) (name : String) : Node α → Node α
  | constant _ => constant 0
  | var other => if other = name then constant 1 else constant 0
  | negation operand =>
      let inner := operand.derivative assignment name
      if inner.isZero then constant 0 else inner.opposite
  | call function operand =>
      let inner := operand.derivative assignment name
      if inner.isZero then constant 0 else chain function operand inner
  | binary operation left right =>
      let left' := left.derivative assignment name
      let right' := right.derivative assignment name
      match operation with
      | .add => left'.sum right'
      | .sub => left'.difference right'
      | .mul => (left'.product right).sum (left.product right')
      | .div =>
          ((left'.product right).difference (left.product right')).quotient
            (right.raised Scalar.two)
  | power base exponent =>
      let inner := base.derivative assignment name
      if inner.isZero then constant 0
      else
        let degree := exponent.value assignment
        ((constant degree).product (base.raised (degree - 1))).product inner

def gradient (assignment : Assignment α) (names : List String) (node : Node α) : List (Node α) :=
  names.map (node.derivative assignment ·)

/-- The second derivatives: row by row the gradients of the first derivatives. -/
def hessian (assignment : Assignment α) (names : List String) (node : Node α) :
    List (List (Node α)) :=
  (node.gradient assignment names).map (·.gradient assignment names)

end Node

end Formula
