import Formula.Node.Derivative

namespace Formula.Node

/-! What the rules of differentiation put together.

A derivative consists of constants, of copies of what the expression has outside its exponents, and
of new nodes above them. Almost every new node is made by an operation that folds, so it is none
that this operation would have folded away. What holds for a derivative is then a matter of these
few ways to make a node, and no longer of the rules.
-/

variable {α : Type}

/-- The parts of an expression outside its exponents, with the expression itself. -/
def parts : Node α → List (Node α)
  | constant value => [constant value]
  | var name => [var name]
  | negation operand => negation operand :: operand.parts
  | call function operand => call function operand :: operand.parts
  | binary operation left right => binary operation left right :: (left.parts ++ right.parts)
  | power base exponent => power base exponent :: base.parts

theorem self_mem_parts (tree : Node α) : tree ∈ tree.parts := by
  cases tree <;> exact List.mem_cons_self

/-- What holds for an expression holds for its parts if every node hands it on to its operands. -/
theorem forall_mem_parts {property : Node α → Prop}
    (negation : ∀ {operand}, property (negation operand) → property operand)
    (call : ∀ {function operand}, property (call function operand) → property operand)
    (binary : ∀ {operation left right}, property (binary operation left right) →
      property left ∧ property right)
    (base : ∀ {base exponent}, property (power base exponent) → property base)
    {tree : Node α} (holds : property tree) : ∀ part ∈ tree.parts, property part := by
  induction tree with
  | constant value => exact List.forall_mem_singleton.mpr holds
  | var name => exact List.forall_mem_singleton.mpr holds
  | negation operand ih => exact List.forall_mem_cons.mpr ⟨holds, ih (negation holds)⟩
  | call function operand ih => exact List.forall_mem_cons.mpr ⟨holds, ih (call holds)⟩
  | binary operation left right leftIH rightIH =>
      obtain ⟨first, second⟩ := binary holds
      exact List.forall_mem_cons.mpr
        ⟨holds, List.forall_mem_append.mpr ⟨leftIH first, rightIH second⟩⟩
  | power _ _ baseIH _ => exact List.forall_mem_cons.mpr ⟨holds, baseIH (base holds)⟩

variable [Scalar α]

/-- Whether the node is a literal constant that equals the number. -/
def isLiteral (number : α) : Node α → Bool
  | constant value => value == number
  | var _ | negation _ | call _ _ | binary _ _ _ | power _ _ => false

theorem isZero_eq_isLiteral (node : Node α) : node.isZero = node.isLiteral 0 := by
  cases node <;> rfl

theorem isOne_eq_isLiteral (node : Node α) : node.isOne = node.isLiteral 1 := by
  cases node <;> rfl

/-- Whether an operand makes the node superfluous: a zero in a sum, a zero or a one in a product, a
numerator zero, a denominator one, an exponent zero or one, a negated constant. -/
def isTrivial : Node α → Bool
  | constant _ | var _ | call _ _ => false
  | negation (constant _) => true
  | negation _ => false
  | binary .add left right | binary .sub left right => left.isLiteral 0 || right.isLiteral 0
  | binary .mul left right =>
      left.isLiteral 0 || right.isLiteral 0 || (left.isLiteral 1 || right.isLiteral 1)
  | binary .div numerator denominator => numerator.isLiteral 0 || denominator.isLiteral 1
  | power _ exponent => exponent.isLiteral 0 || exponent.isLiteral 1

/-- What can be put together from the parts of an expression. -/
inductive Composed (tree : Node α) : Node α → Prop where
  | constant (value : α) : Composed tree (.constant value)
  | part {node : Node α} (within : node ∈ tree.parts) : Composed tree node
  | negation {operand : Node α} (made : Composed tree operand)
      (proper : (Node.negation operand).isTrivial = false) : Composed tree (.negation operand)
  | call (function : Elementary) {operand : Node α} (made : Composed tree operand) :
      Composed tree (.call function operand)
  | binary (operation : Arithmetic) {left right : Node α} (first : Composed tree left)
      (second : Composed tree right)
      (proper : (Node.binary operation left right).isTrivial = false) :
      Composed tree (.binary operation left right)
  | power {base : Node α} (exponent : α) (made : Composed tree base)
      (proper : (Node.power base (.constant exponent)).isTrivial = false) :
      Composed tree (.power base (.constant exponent))
  /-- In `1 + u ^ 2` and `1 - u ^ 2` the operands are not looked at. -/
  | besideOne {operation : Arithmetic} (additive : operation = .add ∨ operation = .sub)
      {operand : Node α} (square : Composed tree (operand.raised Scalar.two)) :
      Composed tree (.binary operation (.constant 1) (operand.raised Scalar.two))

namespace Composed

variable {tree inner operand left right : Node α}

theorem mono (within : inner.parts ⊆ tree.parts) (made : Composed inner operand) :
    Composed tree operand := by
  induction made with
  | constant value => exact constant value
  | part member => exact part (within member)
  | negation _ proper ih => exact negation ih proper
  | call function _ ih => exact call function ih
  | binary operation _ _ proper first second => exact binary operation first second proper
  | power exponent _ proper ih => exact power exponent ih proper
  | besideOne additive _ ih => exact besideOne additive ih

protected theorem opposite (made : Composed tree operand) : Composed tree operand.opposite := by
  cases operand with
  | constant value => exact constant (-value)
  | _ => exact negation made rfl

protected theorem sum (first : Composed tree left) (second : Composed tree right) :
    Composed tree (left.sum right) := by
  unfold sum
  split
  · exact second
  split
  · exact first
  · exact binary .add first second (by simp_all [isTrivial, isZero_eq_isLiteral])

protected theorem difference (first : Composed tree left) (second : Composed tree right) :
    Composed tree (left.difference right) := by
  unfold difference
  split
  · exact first
  split
  · exact second.opposite
  · exact binary .sub first second (by simp_all [isTrivial, isZero_eq_isLiteral])

protected theorem product (first : Composed tree left) (second : Composed tree right) :
    Composed tree (left.product right) := by
  unfold product
  split
  · exact constant 0
  split
  · exact second
  split
  · exact first
  · exact binary .mul first second
      (by simp_all [isTrivial, isZero_eq_isLiteral, isOne_eq_isLiteral])

protected theorem quotient (first : Composed tree left) (second : Composed tree right) :
    Composed tree (left.quotient right) := by
  unfold quotient
  split
  · exact constant 0
  split
  · exact first
  · exact binary .div first second
      (by simp_all [isTrivial, isZero_eq_isLiteral, isOne_eq_isLiteral])

protected theorem raised (made : Composed tree operand) (exponent : α) :
    Composed tree (operand.raised exponent) := by
  unfold raised
  split
  · exact constant 1
  split
  · exact made
  · exact power exponent made (by simp_all [isTrivial, isLiteral])

protected theorem rootOfComplement (made : Composed tree operand) :
    Composed tree operand.rootOfComplement :=
  call .sqrt (besideOne (.inr rfl) (made.raised Scalar.two))

protected theorem chain (function : Elementary) (outer : Composed tree operand)
    (slope : Composed tree inner) : Composed tree (chain function operand inner) := by
  have called (other : Elementary) : Composed tree (.call other operand) := call other outer
  have root := outer.rootOfComplement
  cases function with
  | sin => exact (called .cos).product slope
  | cos => exact (called .sin).opposite.product slope
  | tan => exact slope.quotient ((called .cos).raised Scalar.two)
  | asin => exact slope.quotient root
  | acos => exact (slope.quotient root).opposite
  | atan => exact slope.quotient (besideOne (.inl rfl) (outer.raised Scalar.two))
  | log => exact slope.quotient outer
  | sqrt => exact slope.quotient ((constant Scalar.two).product (called .sqrt))
  | exp => exact (called .exp).product slope

end Composed

/-- A derivative is put together from the parts of the expression. -/
theorem composed_derivative (tree : Node α) (present : Assignment α) (name : String) :
    Composed tree (tree.derivative present name) := by
  induction tree with
  | constant value => exact .constant 0
  | var other =>
      simp only [derivative]
      split <;> exact .constant _
  | negation operand ih =>
      have below : operand.parts ⊆ (negation operand).parts := List.subset_cons_self _ _
      have inner := ih.mono below
      simp only [derivative]
      split
      · exact .constant 0
      · exact inner.opposite
  | call function operand ih =>
      have below : operand.parts ⊆ (call function operand).parts := List.subset_cons_self _ _
      have outer : Composed (call function operand) operand := .part (below operand.self_mem_parts)
      have inner := ih.mono below
      simp only [derivative]
      split
      · exact .constant 0
      · exact outer.chain function inner
  | binary operation left right leftIH rightIH =>
      have below : left.parts ++ right.parts ⊆ (binary operation left right).parts :=
        List.subset_cons_self _ _
      have first : Composed (binary operation left right) left :=
        .part (below (List.mem_append_left _ left.self_mem_parts))
      have second : Composed (binary operation left right) right :=
        .part (below (List.mem_append_right _ right.self_mem_parts))
      have left' := leftIH.mono (fun _ member => below (List.mem_append_left _ member))
      have right' := rightIH.mono (fun _ member => below (List.mem_append_right _ member))
      have leftPart := left'.product second
      have rightPart := first.product right'
      cases operation with
      | add => exact left'.sum right'
      | sub => exact left'.difference right'
      | mul => exact leftPart.sum rightPart
      | div => exact (leftPart.difference rightPart).quotient (second.raised Scalar.two)
  | power base exponent baseIH _ =>
      have below : base.parts ⊆ (power base exponent).parts := List.subset_cons_self _ _
      have lowered : Composed (power base exponent) base := .part (below base.self_mem_parts)
      have inner := baseIH.mono below
      simp only [derivative]
      split
      · exact .constant 0
      · exact ((Composed.constant _).product (lowered.raised _)).product inner

end Formula.Node
