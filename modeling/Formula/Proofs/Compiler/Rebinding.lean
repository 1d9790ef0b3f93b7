import Mathlib
import Formula.Proofs.Node.Names

namespace Formula

/-! That compiling and differentiating ignore what the variables are worth.

Both look at values where there is an exponent: compiling to make a constant of it, differentiating
to lower it. An exponent that is compiled has no variable, and from then on it is a constant.
-/

namespace Node

variable {α : Type}

theorem hasFixedExponents_of_hasLiteralExponents {node : Node α}
    (literal : node.hasLiteralExponents = true) : node.hasFixedExponents = true := by
  induction node with
  | constant value => rfl
  | var name => rfl
  | negation operand ih => exact ih literal
  | call function operand ih => exact ih literal
  | binary operation left right leftIH rightIH =>
      simp only [hasLiteralExponents, Bool.and_eq_true] at literal
      simp only [hasFixedExponents, leftIH literal.1, rightIH literal.2, Bool.and_self]
  | power base exponent baseIH _ =>
      simp only [hasLiteralExponents, Bool.and_eq_true] at literal
      have fixed : exponent.isConstant = true := by
        cases exponent with
        | constant value => rfl
        | _ => simp [asConstant] at literal
      simp only [hasFixedExponents, baseIH literal.1, fixed, Bool.and_self]

variable [Scalar α]

theorem derivative_congr {tree : Node α} (fixed : tree.hasFixedExponents = true)
    (first second : Assignment α) (name : String) :
    tree.derivative first name = tree.derivative second name := by
  induction tree with
  | constant value => rfl
  | var other => rfl
  | negation operand ih => simp only [derivative, ih fixed]
  | call function operand ih => simp only [derivative, ih fixed]
  | binary operation left right leftIH rightIH =>
      simp only [hasFixedExponents, Bool.and_eq_true] at fixed
      simp only [derivative, leftIH fixed.1, rightIH fixed.2]
  | power base exponent baseIH _ =>
      simp only [hasFixedExponents, Bool.and_eq_true] at fixed
      simp only [derivative, baseIH fixed.1, value_eq_of_isConstant fixed.2 first second]

theorem gradient_congr {tree : Node α} (fixed : tree.hasFixedExponents = true)
    (first second : Assignment α) (names : List String) :
    tree.gradient first names = tree.gradient second names :=
  List.map_congr_left fun name _ => derivative_congr fixed first second name

theorem hessian_congr {tree : Node α} (fixed : tree.hasFixedExponents = true)
    (first second : Assignment α) (names : List String) :
    tree.hessian first names = tree.hessian second names := by
  rw [hessian, hessian, gradient_congr fixed first second]
  refine List.map_congr_left fun row member => ?_
  obtain ⟨name, -, rfl⟩ := List.mem_map.mp member
  exact gradient_congr (isHereditary_hasFixedExponents.derivative fixed second name) first second _

theorem repeatedDerivative_congr {tree : Node α} (fixed : tree.hasFixedExponents = true)
    {steps others : List (Assignment α × String)} (same : steps.map (·.2) = others.map (·.2)) :
    tree.repeatedDerivative steps = tree.repeatedDerivative others := by
  induction steps generalizing tree others with
  | nil =>
      obtain rfl : others = [] := by simpa using same.symm
      rfl
  | cons step rest ih =>
      cases others with
      | nil => simp at same
      | cons other further =>
          obtain ⟨name, later⟩ := List.cons.inj same
          have here : tree.derivative step.1 step.2 = tree.derivative other.1 other.2 := by
            rw [show step.2 = other.2 from name]
            exact derivative_congr fixed _ _ _
          have onward := ih (isHereditary_hasFixedExponents.derivative fixed step.1 step.2) later
          exact onward.trans (congrArg (·.repeatedDerivative further) here)

/-- What a power is built with does not depend on the assignment, as only exponents without a
variable have a value. -/
theorem target_congr (first second : Assignment α) : target first = target second := by
  have values : (target first).constantValue? = (target second).constantValue? := by
    funext node
    simp only [target]
    split
    case isTrue fixed => rw [value_eq_of_isConstant fixed first second]
    case isFalse => rfl
  simp only [target, Target.mk.injEq, true_and] at values ⊢
  exact values

theorem assembler_congr {bindings others : List (Variable α)}
    (same : bindings.map (·.name) = others.map (·.name)) (extensions : Extensions (Node α))
    (maxDepth : Option Nat) :
    assembler bindings extensions maxDepth = assembler others extensions maxDepth := by
  have byName (given : List (Variable α)) (name : String) :
      (Variable.find? given name).map (fun found => var found.name) =
        ((given.map (·.name)).find? (· == name)).map (var : String → Node α) := by
    rw [Variable.find?, List.find?_map, Option.map_map]
    rfl
  simp only [assembler, byName, same, target_congr (Variable.assignment bindings)
    (Variable.assignment others)]

end Node

namespace Compiler

variable {α : Type} {compiler : Compiler α}

theorem names_assign (compiler : Compiler α) (index : Nat) (value : α) :
    (compiler.assign index value).names = compiler.names := by
  refine List.ext_getElem? fun position => ?_
  rw [names, names, assign, List.getElem?_map, List.getElem?_map, List.getElem?_modify]
  cases compiler.bindings[position]? with
  | none => rfl
  | some binding => by_cases here : index = position <;> simp [here]

theorem compile_congr [Numeral α] {bindings : List (Variable α)}
    (sameNames : bindings.map (·.name) = compiler.names) (text : String) :
    ({ compiler with bindings } : Compiler α).compile text = compiler.compile text := by
  have expression : ({ compiler with bindings } : Compiler α).expression text =
      compiler.expression text := by
    simp only [Compiler.expression, names, sameNames]
  rw [compile, compile, expression, Node.assembler_congr sameNames]

/-- Compiling and differentiating ignore what the variables are worth: the same tree comes out, or
the same error, and the same derivatives, all with constants as exponents. -/
theorem compile_and_differentiate_ignore_values [Numeral α] (compiler : Compiler α)
    (plain : compiler.extensions.isEmpty = true) {bindings : List (Variable α)}
    (sameNames : bindings.map (·.name) = compiler.names) (text : String) :
    ({ compiler with bindings } : Compiler α).compile text = compiler.compile text ∧
      ∀ tree, compiler.compile text = .ok tree →
        (∀ steps, (tree.repeatedDerivative steps).hasLiteralExponents = true) ∧
        (∀ steps others, steps.map (·.2) = others.map (·.2) →
          tree.repeatedDerivative steps = tree.repeatedDerivative others) ∧
        ∀ first second names, tree.gradient first names = tree.gradient second names ∧
          tree.hessian first names = tree.hessian second names := by
  refine ⟨compile_congr sameNames text, fun tree compiled => ?_⟩
  have literal : tree.hasLiteralExponents = true :=
    Node.hasLiteralExponents_of_isOver (isOver_of_compile plain compiled)
  have fixed := Node.hasFixedExponents_of_hasLiteralExponents literal
  exact ⟨fun steps => Node.isHereditary_hasLiteralExponents.repeatedDerivative literal steps,
    fun steps others same => Node.repeatedDerivative_congr fixed same,
    fun first second names =>
      ⟨Node.gradient_congr fixed first second names, Node.hessian_congr fixed first second names⟩⟩

/-- The value of `x` plays no part in `y * x^(1 + 2)`, nor in its second derivatives. -/
theorem compile_and_differentiate_ignore_values_of_power :
    let compiler : Compiler Float := { bindings := [⟨"x", 2⟩, ⟨"y", 3⟩] }
    let tree : Node Float := .binary .mul (.var "y") (.power (.var "x") (.constant 3))
    compiler.extensions.isEmpty = true ∧ (compiler.assign 0 5).names = compiler.names ∧
      (compiler.assign 0 5).compile "y * x^(1 + 2)" = .ok tree ∧
      (tree.repeatedDerivative
        [(compiler.assignment, "x"), ((compiler.assign 0 5).assignment, "x")]).hasLiteralExponents =
          true ∧
      tree.hessian compiler.assignment compiler.names =
        tree.hessian (compiler.assign 0 5).assignment compiler.names := by
  intro compiler tree
  have sameNames : (compiler.assign 0 5).names = compiler.names := names_assign compiler 0 5
  have compiled : compiler.compile "y * x^(1 + 2)" = .ok tree := by decide +kernel
  obtain ⟨rebound, derivatives⟩ :=
    compile_and_differentiate_ignore_values compiler rfl sameNames "y * x^(1 + 2)"
  obtain ⟨literal, -, second⟩ := derivatives tree compiled
  exact ⟨rfl, sameNames, rebound.trans compiled, literal _, (second _ _ _).2⟩

end Compiler

end Formula
