import Formula.Rpn.Balance
import Formula.Token.Located

namespace Formula

/-! Operator trees: the structure that RPN writes down without parentheses.

A tree is saturated if every token has as many operands as it takes. Its postorder then adds exactly
one value to those that are there, which is all that the count of values looks at.
-/

/-- An item over the trees of its operands, in the order of writing. -/
inductive OperatorTree (τ : Type) where
  | node (head : τ) (operands : List (OperatorTree τ))

namespace OperatorTree

variable {τ : Type}

mutual
/-- The items of the tree in RPN order: every one directly after its operands. -/
def postorder : OperatorTree τ → List τ
  | node head operands => forestPostorder operands ++ [head]

/-- The items of several trees in RPN order, one tree after the other. -/
def forestPostorder : List (OperatorTree τ) → List τ
  | [] => []
  | first :: others => first.postorder ++ forestPostorder others
end

@[simp] theorem postorder_node (head : τ) (operands : List (OperatorTree τ)) :
    (node head operands).postorder = forestPostorder operands ++ [head] := by
  rw [postorder]

@[simp] theorem forestPostorder_nil : forestPostorder ([] : List (OperatorTree τ)) = [] := by
  rw [forestPostorder]

@[simp] theorem forestPostorder_cons (first : OperatorTree τ) (others : List (OperatorTree τ)) :
    forestPostorder (first :: others) = first.postorder ++ forestPostorder others := by
  rw [forestPostorder]

theorem postorder_ne_nil (tree : OperatorTree τ) : tree.postorder ≠ [] := by
  cases tree with
  | node head operands => simp

/-- Every token of the tree has as many operands as it takes. -/
inductive Saturated [Lexical τ] : OperatorTree τ → Prop
  | node {head : τ} {operands : List (OperatorTree τ)}
      (count : operands.length = (Lexical.token head).operands)
      (each : ∀ operand ∈ operands, Saturated operand) : Saturated (node head operands)

end OperatorTree

namespace Rpn

open OperatorTree

variable {τ : Type} [Lexical τ]

/-- If every tree of a forest adds one value, the forest adds as many as it has trees. -/
theorem balanceFrom_forestPostorder {forest : List (OperatorTree τ)}
    (each : ∀ tree ∈ forest, ∀ count rest,
      balanceFrom count (tree.postorder.map Lexical.token ++ rest) = balanceFrom (count + 1) rest)
    (count : Nat) (rest : List Token) :
    balanceFrom count ((forestPostorder forest).map Lexical.token ++ rest) =
      balanceFrom (count + forest.length) rest := by
  induction forest generalizing count with
  | nil => simp
  | cons first others ih =>
      have remaining := ih (fun tree member => each tree (by simp [member])) (count + 1)
      rw [forestPostorder_cons, List.map_append, List.append_assoc,
        each first (by simp), remaining]
      congr 1
      simp only [List.length_cons]
      omega

/-- A saturated tree adds exactly one value, whatever is there and whatever follows. -/
theorem balanceFrom_postorder {tree : OperatorTree τ} (saturated : tree.Saturated) (count : Nat)
    (rest : List Token) :
    balanceFrom count (tree.postorder.map Lexical.token ++ rest) = balanceFrom (count + 1) rest := by
  induction saturated generalizing count rest with
  | @node head operands exact each ih =>
      rw [postorder_node, List.map_append, List.append_assoc, balanceFrom_forestPostorder ih]
      have enough : ¬ count + operands.length < (Lexical.token head).operands := by omega
      simp only [List.map_cons, List.map_nil, List.cons_append, List.nil_append, balanceFrom,
        if_neg enough]
      congr 1
      omega

/-- The postorder of a saturated tree makes exactly one value. -/
theorem balance_postorder {tree : OperatorTree τ} (saturated : tree.Saturated) :
    balance (tree.postorder.map Lexical.token) = .ok () := by
  have counted := balanceFrom_postorder saturated 0 []
  have nonempty : (tree.postorder.map Lexical.token).isEmpty = false := by
    simp [tree.postorder_ne_nil]
  rw [balance, nonempty, if_neg Bool.false_ne_true, ← List.append_nil (tree.postorder.map _), counted]
  rfl

end Rpn

end Formula
