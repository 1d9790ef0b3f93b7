import Mathlib
import Formula.Proofs.Compiler.Outcome
import Formula.Proofs.Node.Heredity
import Formula.Proofs.Node.Rereading

namespace Formula

/-! What the variables and exponents of an expression can be.

An expression that is compiled without extensions has the names of the bindings and constants as
exponents. Its derivatives have no others.
-/

namespace Node

variable {α : Type} {names : List String}

theorem isHereditary_isOver (names : List String) :
    IsHereditary fun node : Node α => node.isOver names = true where
  constant _ := rfl
  negation _ := Iff.rfl
  call _ _ := Iff.rfl
  binary _ _ _ := Bool.and_eq_true_iff
  base holds := (Bool.and_eq_true_iff.mp holds).1
  power holds _ := Bool.and_eq_true_iff.mpr ⟨holds, rfl⟩

theorem hasLiteralExponents_of_isOver {node : Node α} (known : node.isOver names = true) :
    node.hasLiteralExponents = true := by
  induction node with
  | constant value => rfl
  | var name => rfl
  | negation operand ih => exact ih known
  | call function operand ih => exact ih known
  | binary operation left right leftIH rightIH =>
      simp only [isOver, Bool.and_eq_true] at known
      simp only [hasLiteralExponents, leftIH known.1, rightIH known.2, Bool.and_self]
  | power base exponent baseIH _ =>
      simp only [isOver, Bool.and_eq_true] at known
      simp only [hasLiteralExponents, baseIH known.1, known.2, Bool.and_self]

variable [Numeral α] {bindings : List (Variable α)}

theorem isOver_of_forms {token : Token} {operands : List (Node α)} {tree : Node α}
    (forms : (Node.assembler bindings {} none).Forms token operands tree)
    (named : ∀ name ∈ bindings.map (·.name), token = .var name → name ∈ names)
    (each : ∀ operand ∈ operands, operand.isOver names = true) : tree.isOver names = true := by
  cases forms with
  | number read => rfl
  | bound bound =>
      obtain ⟨found, isFirst, rfl⟩ := Option.map_eq_some_iff.mp bound
      have declared : found.name ∈ bindings.map (·.name) :=
        List.mem_map_of_mem (List.mem_of_find?_eq_some isFirst)
      have matching := List.find?_some isFirst
      rw [beq_iff_eq] at matching
      exact List.contains_iff_mem.mpr (named found.name declared (by rw [matching]))
  | named free named => rfl
  | @call function elementary operand named => exact each operand (by simp)
  | @minus operator operand written => exact each operand (by simp)
  | plus written => exact each tree (by simp)
  | @binary operator operation left right meaning =>
      have first := each left (by simp)
      have second := each right (by simp)
      simp [Node.assembler, Node.target, isOver, first, second]
  | @power operator base exponent value written worth =>
      have first := each base (by simp)
      simp [Node.assembler, Node.target, isOver, first, asConstant]

/-- What the stack machine makes has names that its tokens mention, and literal exponents. -/
theorem run_isOver {rpn : List Token} {stack : List (Node α)}
    (named : ∀ name ∈ bindings.map (·.name), .var name ∈ rpn → name ∈ names)
    (ran : (Node.assembler bindings {} none).run rpn = .ok stack) :
    ∀ node ∈ stack, node.isOver names = true := by
  induction rpn using List.reverseRecOn generalizing stack with
  | nil =>
      obtain rfl : [] = stack := by simpa [Assembler.run, pure, Except.pure] using ran
      simp
  | append_singleton earlier token ih =>
      rw [Assembler.run_append_singleton, Assembler.bind_eq_ok_iff] at ran
      obtain ⟨before, started, pushed⟩ := ran
      obtain ⟨_, tree, made, rfl⟩ := Assembler.push_eq_ok_iff.mp pushed
      have each := ih (fun name declared member =>
        named name declared (List.mem_append_left _ member)) started
      have known := isOver_of_forms ((Assembler.node_eq_ok_iff rfl).mp made)
        (fun name declared same => named name declared (by simp [same]))
        fun operand member => each operand (List.mem_of_mem_take (List.mem_reverse.mp member))
      exact List.forall_mem_cons.mpr
        ⟨known, fun node member => each node (List.mem_of_mem_drop member)⟩

end Node

namespace Compiler

variable {α : Type} [Numeral α] {compiler : Compiler α} {text : String} {tree : Node α}

/-- What a compiler without extensions builds has names that are in the RPN, and literal exponents. -/
theorem isOver_of_build (plain : compiler.extensions.isEmpty = true) {expression : Expression}
    {rpn : List Token} (made : compiler.expression text = .ok expression)
    (ordered : expression.rpn = .ok rpn) (built : compiler.assembler.build rpn = .ok tree)
    {names : List String} (named : ∀ name ∈ compiler.names, .var name ∈ rpn → name ∈ names) :
    tree.isOver names = true := by
  obtain ⟨_, admitted, _⟩ := rpn_wellFormed made ordered
  have whole : (Node.assembler compiler.bindings compiler.extensions none).build rpn = .ok tree :=
    Assembler.build_unlimited built
  rw [Extensions.eq_empty plain] at whole
  have allowed : ∀ token ∈ rpn, (Node.assembler compiler.bindings {} none).Admits token := by
    intro token member
    have admits := admitted token member
    rw [assembler, Extensions.eq_empty plain] at admits
    cases token <;> exact admits
  have ran := (Assembler.build_eq_ok_iff rfl allowed tree).mp whole
  exact Node.run_isOver named ran tree (by simp)

/-- What a compiler without extensions makes has the names of its variables and literal exponents. -/
theorem isOver_of_compile (plain : compiler.extensions.isEmpty = true)
    (compiled : compiler.compile text = .ok tree) : tree.isOver compiler.names = true := by
  obtain ⟨expression, rpn, made, ordered, built⟩ := exists_rpn_of_compile compiled
  exact isOver_of_build plain made ordered built fun _ declared _ => declared

end Compiler

end Formula
