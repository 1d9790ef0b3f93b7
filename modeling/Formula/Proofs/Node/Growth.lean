import Mathlib.Tactic.Ring
import Formula.Node.Derivative
import Formula.Scalar.Numeral

namespace Formula.Node

/-! How large a derivative becomes.

Every rule copies operands beside their derivatives, but no derivative twice. So the size of a
derivative is bounded by a square, and its depth by a multiple of the depth; the chain rule of the
arc cosine adds the most nodes, and the longest way down. Size and depth only differ in how a node
counts its two operands, so what one rule adds is stated for both at once.
-/

variable {α : Type}

/-- The extent of an expression, where `join` tells the extent of two operands side by side. -/
def extent (join : Nat → Nat → Nat) : Node α → Nat
  | constant _ | var _ => 1
  | negation operand | call _ operand => 1 + operand.extent join
  | binary _ left right | power left right => 1 + join (left.extent join) (right.extent join)

theorem size_eq_extent (node : Node α) : node.size = node.extent (· + ·) := by
  induction node with
  | constant _ | var _ => rfl
  | negation _ ih | call _ _ ih => simp only [size, extent, ih]
  | binary _ _ _ left right | power _ _ left right =>
      simp only [size, extent, left, right, Nat.add_assoc]

theorem depth_eq_extent (node : Node α) : node.depth = node.extent max := by
  induction node with
  | constant _ | var _ => rfl
  | negation _ ih | call _ _ ih => simp only [depth, extent, ih]
  | binary _ _ _ left right | power _ _ left right => simp only [depth, extent, left, right]

/-- What the chain rule makes of the extents of an operand and of its derivative: at most two nodes
above the derivative, with the root of a complement beside it. -/
def chainExtent (join : Nat → Nat → Nat) (operand inner : Nat) : Nat :=
  2 + join inner (2 + join 1 (1 + join operand 1))

/-- What the quotient rule makes of the extents of two operands and of their derivatives. -/
def quotientExtent (join : Nat → Nat → Nat) (left' left right right' : Nat) : Nat :=
  1 + join (1 + join (1 + join left' right) (1 + join left right')) (1 + join right 1)

/-- Two operands extend at least as far as each of them, and no further if they become smaller. -/
structure Joins (join : Nat → Nat → Nat) : Prop where
  comm (first second : Nat) : join first second = join second first
  left_le (first second : Nat) : first ≤ join first second
  mono {first second first' second' : Nat} (left : first ≤ first') (right : second ≤ second') :
    join first second ≤ join first' second'

theorem joins_add : Joins (· + ·) where
  comm := Nat.add_comm
  left_le := Nat.le_add_right
  mono := Nat.add_le_add

theorem joins_max : Joins max where
  comm := Nat.max_comm
  left_le := Nat.le_max_left
  mono left right := by omega

theorem extent_pos (join : Nat → Nat → Nat) (node : Node α) : 0 < node.extent join := by
  cases node <;> simp only [extent] <;> omega

theorem extent_opposite_le [Scalar α] (join : Nat → Nat → Nat) (operand : Node α) :
    operand.opposite.extent join ≤ 1 + operand.extent join := by
  cases operand with
  | constant value => exact Nat.le_add_left 1 1
  | _ => exact le_refl _

namespace Joins

variable {join : Nat → Nat → Nat} (joins : Joins join)

include joins

theorem right_le (first second : Nat) : second ≤ join first second :=
  joins.comm second first ▸ joins.left_le second first

variable [Scalar α] (left right operand inner : Node α)

theorem extent_sum_le :
    (left.sum right).extent join ≤ 1 + join (left.extent join) (right.extent join) := by
  have first := joins.left_le (left.extent join) (right.extent join)
  have second := joins.right_le (left.extent join) (right.extent join)
  unfold sum
  split
  · omega
  split
  · omega
  · exact le_refl _

theorem extent_difference_le :
    (left.difference right).extent join ≤ 1 + join (left.extent join) (right.extent join) := by
  have first := joins.left_le (left.extent join) (right.extent join)
  have second := joins.right_le (left.extent join) (right.extent join)
  have opposite := right.extent_opposite_le join
  unfold difference
  split
  · omega
  split
  · omega
  · exact le_refl _

theorem extent_product_le :
    (left.product right).extent join ≤ 1 + join (left.extent join) (right.extent join) := by
  have first := joins.left_le (left.extent join) (right.extent join)
  have second := joins.right_le (left.extent join) (right.extent join)
  unfold product
  split
  · exact Nat.le_add_right 1 _
  split
  · omega
  split
  · omega
  · exact le_refl _

theorem extent_quotient_le :
    (left.quotient right).extent join ≤ 1 + join (left.extent join) (right.extent join) := by
  have first := joins.left_le (left.extent join) (right.extent join)
  unfold quotient
  split
  · exact Nat.le_add_right 1 _
  split
  · omega
  · exact le_refl _

theorem extent_raised_le (exponent : α) :
    (operand.raised exponent).extent join ≤ 1 + join (operand.extent join) 1 := by
  have base := joins.left_le (operand.extent join) 1
  unfold raised
  split
  · exact Nat.le_add_right 1 _
  split
  · omega
  · exact le_refl _

/-- What the rules put beside the derivative of the operand; the root of a complement is largest. -/
theorem exists_factor_of_chain (function : Elementary) :
    ∃ factor : Node α,
      factor.extent join ≤ 2 + join 1 (1 + join (operand.extent join) 1) ∧
      (chain function operand inner = factor.product inner ∨
        chain function operand inner = inner.quotient factor ∨
        chain function operand inner = (inner.quotient factor).opposite) := by
  have self := joins.left_le (operand.extent join) 1
  have beside := joins.right_le 1 (1 + join (operand.extent join) 1)
  have square := joins.extent_raised_le operand Scalar.two
  have besideOne := joins.mono (le_refl 1) square
  have root : operand.rootOfComplement.extent join ≤
      2 + join 1 (1 + join (operand.extent join) 1) := by
    simp only [rootOfComplement, extent]
    omega
  have grown := Nat.add_le_add_left self 1
  have called (other : Elementary) :
      (call other operand).extent join = 1 + operand.extent join := rfl
  cases function with
  | sin => exact ⟨call .cos operand, by rw [called]; omega, .inl rfl⟩
  | cos =>
      exact ⟨(call .sin operand).opposite, by simp only [opposite, extent]; omega, .inl rfl⟩
  | tan =>
      have cosine := joins.extent_raised_le (call .cos operand) Scalar.two
      have wider := (joins.mono grown (le_refl 1)).trans_eq (joins.comm _ 1)
      rw [called] at cosine
      exact ⟨_, by omega, .inr (.inl rfl)⟩
  | asin => exact ⟨operand.rootOfComplement, root, .inr (.inl rfl)⟩
  | acos => exact ⟨operand.rootOfComplement, root, .inr (.inr rfl)⟩
  | atan => exact ⟨_, by simp only [extent]; omega, .inr (.inl rfl)⟩
  | log => exact ⟨operand, by omega, .inr (.inl rfl)⟩
  | sqrt =>
      have doubled := joins.extent_product_le (constant Scalar.two) (call .sqrt operand)
      have wider := joins.mono (le_refl 1) grown
      simp only [extent] at doubled
      exact ⟨_, by omega, .inr (.inl rfl)⟩
  | exp => exact ⟨call .exp operand, by rw [called]; omega, .inl rfl⟩

theorem extent_chain_le (function : Elementary) :
    (chain function operand inner).extent join ≤
      chainExtent join (operand.extent join) (inner.extent join) := by
  obtain ⟨factor, bounded, made⟩ := joins.exists_factor_of_chain operand inner function
  have widest := joins.mono (le_refl (inner.extent join)) bounded
  unfold chainExtent
  rcases made with made | made | made
  · have whole := joins.extent_product_le factor inner
    rw [joins.comm] at whole
    rw [made]
    omega
  · have whole := joins.extent_quotient_le inner factor
    rw [made]
    omega
  · have whole := joins.extent_quotient_le inner factor
    have negated := (inner.quotient factor).extent_opposite_le join
    rw [made]
    omega

theorem extent_powerRule_le (degree below : α) :
    (((constant degree).product (operand.raised below)).product inner).extent join ≤
      chainExtent join (operand.extent join) (inner.extent join) := by
  have product := joins.extent_product_le (constant degree) (operand.raised below)
  have power := joins.mono (le_refl 1) (joins.extent_raised_le operand below)
  have factor : ((constant degree).product (operand.raised below)).extent join ≤
      2 + join 1 (1 + join (operand.extent join) 1) := by
    simp only [extent] at product
    omega
  have whole := joins.extent_product_le ((constant degree).product (operand.raised below)) inner
  have widest := joins.mono (le_refl (inner.extent join)) factor
  rw [joins.comm] at whole
  unfold chainExtent
  omega

/-- The rules for two operands make no more than the quotient rule. -/
theorem extent_derivative_binary_le (operation : Arithmetic) (present : Assignment α)
    (name : String) :
    ((binary operation left right).derivative present name).extent join ≤
      quotientExtent join ((left.derivative present name).extent join) (left.extent join)
        (right.extent join) ((right.derivative present name).extent join) := by
  simp only [derivative]
  generalize left.derivative present name = left'
  generalize right.derivative present name = right'
  have first := joins.extent_product_le left' right
  have second := joins.extent_product_le left right'
  have products := joins.mono first second
  have operands := joins.mono (joins.left_le (left'.extent join) (right.extent join))
    (joins.right_le (left.extent join) (right'.extent join))
  have above := joins.mono (Nat.le_add_left (join (left'.extent join) (right.extent join)) 1)
    (Nat.le_add_left (join (left.extent join) (right'.extent join)) 1)
  have numerator := joins.left_le
    (1 + join (1 + join (left'.extent join) (right.extent join))
      (1 + join (left.extent join) (right'.extent join))) (1 + join (right.extent join) 1)
  unfold quotientExtent
  cases operation with
  | add =>
      refine (joins.extent_sum_le left' right').trans ?_
      omega
  | sub =>
      refine (joins.extent_difference_le left' right').trans ?_
      omega
  | mul =>
      refine (joins.extent_sum_le (left'.product right) (left.product right')).trans ?_
      omega
  | div =>
      have difference := joins.extent_difference_le (left'.product right) (left.product right')
      have denominator := joins.extent_raised_le right Scalar.two
      have parts := joins.mono (difference.trans (Nat.add_le_add_left products 1)) denominator
      exact (joins.extent_quotient_le _ _).trans (Nat.add_le_add_left parts 1)

end Joins

/-- A bound for derivatives, as a function of the extent of an expression, that leaves room for what
the rules add. -/
structure HasRoom (join : Nat → Nat → Nat) (bound : Nat → Nat) : Prop where
  leaf : 1 ≤ bound 1
  mono : Monotone bound
  chain {operand : Nat} (positive : 0 < operand) :
    chainExtent join operand (bound operand) ≤ bound (1 + operand)
  quotient {left right : Nat} (first : 0 < left) (second : 0 < right) :
    quotientExtent join (bound left) left right (bound right) ≤ bound (1 + join left right)

/-- Every rule stays within a bound that has room for it. -/
theorem Joins.extent_derivative_le [Scalar α] {join : Nat → Nat → Nat} (joins : Joins join)
    {bound : Nat → Nat} (room : HasRoom join bound) (tree : Node α) (present : Assignment α)
    (name : String) : (tree.derivative present name).extent join ≤ bound (tree.extent join) := by
  have zero (node : Node α) : (constant (0 : α)).extent join ≤ bound (node.extent join) :=
    room.leaf.trans (room.mono (node.extent_pos join))
  have chainRule {operand : Node α}
      (ih : (operand.derivative present name).extent join ≤ bound (operand.extent join)) :
      chainExtent join (operand.extent join) ((operand.derivative present name).extent join) ≤
        bound (1 + operand.extent join) :=
    (Nat.add_le_add_left (joins.mono ih (le_refl _)) 2).trans (room.chain (operand.extent_pos join))
  induction tree with
  | constant value => exact room.leaf
  | var other =>
      simp only [derivative]
      split <;> exact room.leaf
  | negation operand ih =>
      simp only [derivative]
      split
      · exact zero (.negation operand)
      · have negated := (operand.derivative present name).extent_opposite_le join
        have beside := joins.left_le ((operand.derivative present name).extent join)
          (2 + join 1 (1 + join (operand.extent join) 1))
        refine le_trans ?_ (chainRule ih)
        unfold chainExtent
        omega
  | call function operand ih =>
      simp only [derivative]
      split
      · exact zero (.call function operand)
      · exact (joins.extent_chain_le operand _ function).trans (chainRule ih)
  | binary operation left right leftIH rightIH =>
      have products := joins.mono
        (Nat.add_le_add_left (joins.mono leftIH (le_refl (right.extent join))) 1)
        (Nat.add_le_add_left (joins.mono (le_refl (left.extent join)) rightIH) 1)
      calc
        _ ≤ _ := joins.extent_derivative_binary_le left right operation present name
        _ ≤ _ := Nat.add_le_add_left
          (joins.mono (Nat.add_le_add_left products 1) (le_refl (1 + join (right.extent join) 1))) 1
        _ ≤ _ := room.quotient (left.extent_pos join) (right.extent_pos join)
  | power base exponent baseIH =>
      simp only [derivative]
      split
      · exact zero (.power base exponent)
      · refine (joins.extent_powerRule_le base _ _ _).trans ((chainRule baseIH).trans ?_)
        exact room.mono (Nat.add_le_add_left (joins.left_le _ _) 1)

theorem hasRoom_square : HasRoom (· + ·) (3 * · ^ 2) where
  leaf := by decide
  mono _ _ le := Nat.mul_le_mul_left 3 (Nat.pow_le_pow_left le 2)
  chain {operand} positive := by
    have square : (1 + operand) ^ 2 = operand ^ 2 + 2 * operand + 1 := by ring
    simp only [chainExtent, square]
    omega
  quotient {left right} first second := by
    have square : (1 + (left + right)) ^ 2 =
        left ^ 2 + right ^ 2 + 2 * (left * right) + 2 * left + 2 * right + 1 := by ring
    simp only [quotientExtent, square]
    omega

theorem hasRoom_triple : HasRoom max (3 * ·) where
  leaf := by decide
  mono _ _ le := Nat.mul_le_mul_left 3 le
  chain positive := by
    simp only [chainExtent]
    omega
  quotient first second := by
    simp only [quotientExtent]
    omega

/-- A derivative has at most three times the square of the nodes, and is at most three times as
deep. -/
theorem derivative_growth [Scalar α] (tree : Node α) (present : Assignment α) (name : String) :
    (tree.derivative present name).size ≤ 3 * tree.size ^ 2 ∧
      (tree.derivative present name).depth ≤ 3 * tree.depth := by
  constructor
  · rw [size_eq_extent, size_eq_extent]
    exact joins_add.extent_derivative_le hasRoom_square tree present name
  · rw [depth_eq_extent, depth_eq_extent]
    exact joins_max.extent_derivative_le hasRoom_triple tree present name

/-- The arc cosine of a variable reaches the bound of the depth. -/
example :
    let tree : Node Float := .call .acos (.var "x")
    tree.depth = 2 ∧ (tree.derivative (fun _ => 0) "x").depth = 6 := by
  decide +kernel

end Formula.Node
