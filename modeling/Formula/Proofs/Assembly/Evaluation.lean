import Mathlib
import Formula.Compiler
import Formula.Proofs.Node.Constancy
import Formula.Proofs.Assembly.StackMachine

namespace Formula

/-! The stack machine over numbers, and that it computes the value of the assembled tree.

Over numbers the machine applies the operations of the scalar at once. Over trees it applies them
later, under an assignment, except in exponents, whose value is taken while the tree is built; an
exponent has no variable, so that makes no difference.
-/

variable {α N : Type}

def Scalar.target [Scalar α] : Target α α where
  constant := id
  negation := (- ·)
  call := Scalar.elementary
  binary := Scalar.arithmetic
  power := Scalar.power
  constantValue? := some

/-- The assembler of values: a bound variable is worth what the assignment says. -/
def Scalar.assembler [Scalar α] (bindings : List (Variable α)) (assignment : Assignment α) :
    Assembler α α where
  target := Scalar.target
  boundNode? name := (Variable.find? bindings name).map fun found => assignment found.name

namespace Assembler

variable [Numeral α] {bindings : List (Variable α)} {assignment : Assignment α}

theorem constantValue?_eq_some_iff {exponent : Node α} {value : α} :
    (Node.assembler bindings {} none).target.constantValue? exponent = some value ↔
      exponent.isConstant = true ∧ exponent.value (Variable.assignment bindings) = value := by
  simp [Node.assembler, Node.target]

/-- What a token forms is worth what it forms of the values. -/
theorem Forms.value {token : Token} {operands : List (Node α)} {tree : Node α}
    (forms : (Node.assembler bindings {} none).Forms token operands tree) :
    (Scalar.assembler bindings assignment).Forms token (operands.map (·.value assignment))
      (tree.value assignment) := by
  cases forms with
  | number read => exact .number read
  | bound bound =>
      obtain ⟨found, first, rfl⟩ := Option.map_eq_some_iff.mp bound
      refine .bound ?_
      simp [Scalar.assembler, first, Node.value]
  | named free named =>
      refine .named ?_ named
      simpa [Scalar.assembler, Node.assembler] using free
  | call named => exact .call named
  | minus written => exact .minus written
  | plus written => exact .plus written
  | binary meaning => exact .binary meaning
  | @power operator base exponent value written worth =>
      obtain ⟨fixed, rfl⟩ := constantValue?_eq_some_iff.mp worth
      refine .power written ?_
      exact congrArg some (Node.value_eq_of_isConstant fixed _ _)

theorem push_value {stack next : List (Node α)} {token : Token}
    (pushed : (Node.assembler bindings {} none).push stack token = .ok next) :
    (Scalar.assembler bindings assignment).push (stack.map (·.value assignment)) token =
      .ok (next.map (·.value assignment)) := by
  obtain ⟨enough, tree, made, rfl⟩ := push_eq_ok_iff.mp pushed
  refine push_eq_ok_iff.mpr ⟨by simpa using enough, tree.value assignment, ?_, by simp⟩
  rw [← List.map_take, ← List.map_reverse, node_eq_ok_iff rfl]
  exact ((node_eq_ok_iff rfl).mp made).value

theorem run_value {rpn : List Token} {stack : List (Node α)}
    (ran : (Node.assembler bindings {} none).run rpn = .ok stack) :
    (Scalar.assembler bindings assignment).run rpn = .ok (stack.map (·.value assignment)) := by
  induction rpn using List.reverseRecOn generalizing stack with
  | nil =>
      obtain rfl : [] = stack := by simpa [run, pure, Except.pure] using ran
      rfl
  | append_singleton earlier token ih =>
      rw [run_append_singleton, bind_eq_ok_iff] at ran ⊢
      obtain ⟨before, started, pushed⟩ := ran
      exact ⟨_, ih started, push_value pushed⟩

end Assembler

/-- Assembly from the last token and the stack machine from the first make the same tree, or neither
makes one; and the value of the tree, under whatever assignment, is what the machine over numbers
computes. -/
theorem build_agrees_with_run [Numeral α] (rpn : List Token) :
    (∀ assembler : Assembler α N, assembler.maxDepth = none →
      (∀ token ∈ rpn, assembler.Admits token) →
        ∀ tree, assembler.build rpn = .ok tree ↔ assembler.run rpn = .ok [tree]) ∧
    ∀ bindings : List (Variable α),
      (∀ token ∈ rpn, (Node.assembler bindings {} none).Admits token) →
        ∀ tree, (Node.assembler bindings {} none).build rpn = .ok tree →
          ∀ assignment,
            (Scalar.assembler bindings assignment).run rpn = .ok [tree.value assignment] := by
  refine ⟨fun assembler unlimited admitted tree => Assembler.build_eq_ok_iff unlimited admitted tree,
    fun bindings admitted tree built assignment => ?_⟩
  exact Assembler.run_value ((Assembler.build_eq_ok_iff rfl admitted tree).mp built)

/-- `a - b ^ (1 + 2)`, where the order of the operands matters, and the exponent is folded. -/
theorem build_difference_of_power :
    let rpn : List Token := [.var "a", .var "b", .number 1, .number 2,
      .operator ⟨"+", 2, true, 500⟩, .operator ⟨"^", 2, false, 10000⟩,
      .operator ⟨"-", 2, true, 500⟩]
    let assembler : Assembler Float (Node Float) := Node.assembler [⟨"a", 1⟩, ⟨"b", 2⟩] {} none
    (∀ token ∈ rpn, assembler.Admits token) ∧
      assembler.run rpn = .ok [.binary .sub (.var "a") (.power (.var "b") (.constant 3))] ∧
      (Scalar.assembler [⟨"a", 1⟩, ⟨"b", 2⟩] fun name => if name = "a" then 7 else 3).run rpn =
        .ok [(7 : Float) - Float.pow 3 3] := by
  intro rpn assembler
  have admitted : ∀ token ∈ rpn, assembler.Admits token := by
    simp [rpn, Assembler.Admits]
  have built : assembler.build rpn =
      .ok (.binary .sub (.var "a") (.power (.var "b") (.constant 3))) := by
    decide +kernel
  exact ⟨admitted, ((build_agrees_with_run rpn).1 assembler rfl admitted _).mp built,
    (@build_agrees_with_run Float (Node Float) _ rpn).2 _ admitted _ built _⟩

end Formula
