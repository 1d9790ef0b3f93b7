import Formula.Proofs.Node.Heredity
import Formula.Scalar.Numeral

namespace Formula.Node

/-! Trivial nodes, of which a derivative has only those that it copies.

The operations that fold do so whatever their operands come from, so a constant that appears in one
of them does not survive in the next one. This holds of derivatives of derivatives, too.
-/

variable {α : Type}

/-- All parts of an expression, with the expression itself. -/
def subtrees : Node α → List (Node α)
  | constant value => [constant value]
  | var name => [var name]
  | negation operand => negation operand :: operand.subtrees
  | call function operand => call function operand :: operand.subtrees
  | binary operation left right =>
      binary operation left right :: (left.subtrees ++ right.subtrees)
  | power base exponent => power base exponent :: (base.subtrees ++ exponent.subtrees)

theorem subtrees_subset_of_mem_parts (tree : Node α) :
    ∀ part ∈ tree.parts, part.subtrees ⊆ tree.subtrees := by
  refine forall_mem_parts ?negation ?call ?binary ?base (List.Subset.refl _)
  case negation | call => exact fun within => (List.cons_subset.mp within).2
  case binary => exact fun within => List.append_subset.mp (List.cons_subset.mp within).2
  case base => exact fun within => (List.append_subset.mp (List.cons_subset.mp within).2).1

variable [Scalar α]

theorem isLiteral_raised_two (one : ((1 : α) == 0) = false) (two : ((Scalar.two : α) == 1) = false)
    (operand : Node α) : (operand.raised Scalar.two).isLiteral 0 = false := by
  unfold raised
  split
  · exact one
  · rw [if_neg (by simp [two])]
    rfl

/-- Neither one nor a square is a zero. -/
theorem isTrivial_besideOne (one : ((1 : α) == 0) = false)
    (two : ((Scalar.two : α) == 1) = false) {operation : Arithmetic}
    (additive : operation = .add ∨ operation = .sub) (operand : Node α) :
    (binary operation (constant 1) (operand.raised Scalar.two)).isTrivial = false := by
  have first : (constant (1 : α)).isLiteral 0 = false := one
  have second := isLiteral_raised_two one two operand
  rcases additive with rfl | rfl <;> simp only [isTrivial, first, second, Bool.or_self]

/-- What is composed of an expression has no trivial part that the expression does not have. -/
theorem Composed.mem_subtrees_of_isTrivial (one : ((1 : α) == 0) = false)
    (two : ((Scalar.two : α) == 1) = false) {tree node part : Node α} (made : Composed tree node)
    (within : part ∈ node.subtrees) (trivial : part.isTrivial = true) : part ∈ tree.subtrees := by
  induction made with
  | constant value => simp [List.mem_singleton.mp within, isTrivial] at trivial
  | part member => exact subtrees_subset_of_mem_parts tree _ member within
  | negation _ proper ih =>
      rcases List.mem_cons.mp within with rfl | within
      · cases proper.symm.trans trivial
      · exact ih within
  | call function _ ih =>
      rcases List.mem_cons.mp within with rfl | within
      · simp [isTrivial] at trivial
      · exact ih within
  | binary operation _ _ proper first second =>
      rcases List.mem_cons.mp within with rfl | within
      · cases proper.symm.trans trivial
      · exact (List.mem_append.mp within).elim first second
  | power exponent _ proper ih =>
      rcases List.mem_cons.mp within with rfl | within
      · cases proper.symm.trans trivial
      rcases List.mem_append.mp within with within | within
      · exact ih within
      · simp [List.mem_singleton.mp within, isTrivial] at trivial
  | @besideOne operation additive operand _ ih =>
      rcases List.mem_cons.mp within with rfl | within
      · cases (isTrivial_besideOne one two additive operand).symm.trans trivial
      rcases List.mem_append.mp within with within | within
      · simp [List.mem_singleton.mp within, isTrivial] at trivial
      · exact ih within

/-- Differentiation makes no trivial node and rewrites none: the trivial parts of a derivative are
copies of parts of the expression. So there are none in the derivatives of an expression without
them, of any order. Of the scalars it is asked that one is neither zero nor two. -/
theorem derivative_makes_no_trivial_part (one : ((1 : α) == 0) = false)
    (two : ((Scalar.two : α) == 1) = false) (tree : Node α) :
    (∀ present name, ∀ part ∈ (tree.derivative present name).subtrees,
      part.isTrivial = true → part ∈ tree.subtrees) ∧
    ((∀ part ∈ tree.subtrees, part.isTrivial = false) →
      ∀ steps, ∀ part ∈ (tree.repeatedDerivative steps).subtrees, part.isTrivial = false) := by
  have copied (tree : Node α) (present : Assignment α) (name : String) (part : Node α)
      (within : part ∈ (tree.derivative present name).subtrees) (trivial : part.isTrivial = true) :
      part ∈ tree.subtrees :=
    (composed_derivative tree present name).mem_subtrees_of_isTrivial one two within trivial
  have step (reached : Node α) (before : ∀ part ∈ reached.subtrees, part.isTrivial = false)
      (present : Assignment α) (name : String) :
      ∀ part ∈ (reached.derivative present name).subtrees, part.isTrivial = false := by
    intro part within
    refine Bool.eq_false_iff.mpr fun trivial => ?_
    have known := copied reached present name part within trivial
    cases (before part known).symm.trans trivial
  exact ⟨copied tree, fun plain => repeatedDerivative_induction step plain⟩

/-- The sum `0 + x` is copied into the derivative of `(0 + x) * atan(y)` by `y`. In single precision,
nothing in the second derivative of `atan(x * y)` is trivial. -/
theorem derivative_makes_no_trivial_part_of_arctangent :
    let sum : Node Float := .binary .add (.constant 0) (.var "x")
    let product : Node Float := .binary .mul sum (.call .atan (.var "y"))
    let plain : Node Float32 := .call .atan (.binary .mul (.var "x") (.var "y"))
    (((1 : Float) == 0) = false ∧ ((Scalar.two : Float) == 1) = false ∧ sum.isTrivial = true ∧
      sum ∈ (product.derivative (fun _ => 1) "y").subtrees ∧ sum ∈ product.subtrees) ∧
    ((1 : Float32) == 0) = false ∧ ((Scalar.two : Float32) == 1) = false ∧
      (∀ part ∈ plain.subtrees, part.isTrivial = false) ∧
      ∀ part ∈ (plain.repeatedDerivative [(fun _ => 1, "x"), (fun _ => 1, "y")]).subtrees,
        part.isTrivial = false := by
  intro sum product plain
  have one : ((1 : Float) == 0) = false := by decide +kernel
  have two : ((Scalar.two : Float) == 1) = false := by decide +kernel
  have trivial : sum.isTrivial = true := by decide +kernel
  have within : sum ∈ (product.derivative (fun _ => 1) "y").subtrees := by decide +kernel
  have one' : ((1 : Float32) == 0) = false := by decide +kernel
  have two' : ((Scalar.two : Float32) == 1) = false := by decide +kernel
  have nothing : ∀ part ∈ plain.subtrees, part.isTrivial = false := by decide +kernel
  have copied := (derivative_makes_no_trivial_part one two product).1 (fun _ => 1) "y" sum within
  exact ⟨⟨one, two, trivial, within, copied trivial⟩, one', two', nothing,
    (derivative_makes_no_trivial_part one' two' plain).2 nothing _⟩

end Formula.Node
