import Formula.Proofs.Compiler.Outcome
import Formula.Proofs.Expression.Collision
import Formula.Proofs.Node.Names
import Formula.Proofs.Node.Spelling

namespace Formula

open Numeral Operator

/-! That the text of an expression compiles to the expression.

The text writes the reread expression, which is legible; and of a legible expression the tokens, the
phrase and the postorder are known, so compiling gives it back as it is.
-/

namespace Node

section

variable {α : Type} [Numeral α] {bindings : List (Variable α)}

theorem push_leaf {token : Token} {node : Node α} (stack : List (Node α))
    (leaf : token.operands = 0)
    (made : (Node.assembler bindings {} none).node token [] = .ok node) :
    (Node.assembler bindings {} none).push stack token = .ok (node :: stack) := by
  simp [Assembler.push, leaf, made, Except.map]

theorem push_number {literal : Float} {number : α} (accepted : ofLiteral? literal = some number)
    (stack : List (Node α)) :
    (Node.assembler bindings {} none).push stack (.number literal) =
      .ok (.constant number :: stack) := by
  refine push_leaf stack rfl ?_
  simp only [Assembler.node, accepted]
  rfl

theorem push_var {name : String} (declared : name ∈ bindings.map (·.name))
    (stack : List (Node α)) :
    (Node.assembler bindings {} none).push stack (.var name) = .ok (.var name :: stack) := by
  obtain ⟨binding, isBinding, rfl⟩ := List.mem_map.mp declared
  have bound : (Variable.find? bindings binding.name).isSome = true :=
    List.find?_isSome.mpr ⟨binding, isBinding, beq_self_eq_true binding.name⟩
  obtain ⟨found, isFirst⟩ := Option.isSome_iff_exists.mp bound
  have same : found.name = binding.name := by
    have matching := List.find?_some isFirst
    simpa using matching
  refine push_leaf stack rfl ?_
  simp [Assembler.node_var, Assembler.variableNode, Node.assembler, isFirst, same]

theorem push_minus (operand : Node α) (stack : List (Node α)) :
    (Node.assembler bindings {} none).push (operand :: stack) (.operator minus) =
      .ok (.negation operand :: stack) := rfl

theorem push_call (function : Elementary) (operand : Node α) (stack : List (Node α)) :
    (Node.assembler bindings {} none).push (operand :: stack) (.function ⟨function.name, 1⟩) =
      .ok (.call function operand :: stack) := by
  cases function <;> rfl

theorem push_binary (operation : Arithmetic) (left right : Node α)
    (stack : List (Node α)) :
    (Node.assembler bindings {} none).push (right :: left :: stack)
      (.operator operation.operator) = .ok (.binary operation left right :: stack) := by
  cases operation <;> rfl

/-- An exponent without variables becomes the constant that it is worth. -/
theorem push_caret {exponent : Node α} (fixed : exponent.isConstant = true)
    (base : Node α) (stack : List (Node α)) :
    (Node.assembler bindings {} none).push (exponent :: base :: stack) (.operator caret) =
      .ok (.power base (.constant (exponent.value (Variable.assignment bindings))) :: stack) := by
  have made : (Node.assembler bindings {} none).node (.operator caret) [base, exponent] =
      .ok (.power base (.constant (exponent.value (Variable.assignment bindings)))) := by
    refine (Assembler.node_eq_ok_iff rfl).mpr (.power rfl ?_)
    simp [Node.assembler, Node.target, fixed]
  simpa [Assembler.push, Token.operands, caret, Except.map] using congrArg (Except.map (· :: stack)) made

variable [LawfulNumeral α] {tree : Node α} {names : List String}

/-- A number is made from its magnitude, and negated if it lies below zero. -/
theorem push_postorder_constant (bindings : List (Variable α)) {value : α}
    (printable : Printable value) (reads : LiteralReadsBack (magnitude value))
    (stack : List (Node α)) :
    ∃ node : Node α, (isBelowZero value = false → node = constant value) ∧
      node.isConstant = true ∧ node.value (Variable.assignment bindings) = value ∧
      (constant value).phrase.tree.postorder.foldlM (Node.assembler bindings {} none).push stack =
        .ok (node :: stack) := by
  cases below : isBelowZero value with
  | true =>
      refine ⟨negation (constant (magnitude value)), by simp, rfl,
        neg_magnitude_of_isBelowZero below, ?_⟩
      simp only [phrase, below, ↓reduceIte, Phrase.signed, Phrase.ofToken,
        OperatorTree.postorder_node, OperatorTree.forestPostorder_cons,
        OperatorTree.forestPostorder_nil, List.nil_append, List.cons_append, List.foldlM_cons,
        push_number reads.ofLiteral?_eq, Bind.bind, Except.bind, push_minus]
      rfl
  | false =>
      rw [printable.magnitude_eq below] at reads
      refine ⟨constant value, fun _ => rfl, rfl, rfl, ?_⟩
      simp only [phrase, below, Bool.false_eq_true, ↓reduceIte, Phrase.ofToken,
        OperatorTree.postorder_node, OperatorTree.forestPostorder_nil, List.nil_append,
        List.foldlM_cons, push_number reads.ofLiteral?_eq, Bind.bind, Except.bind]
      rfl

/-- The stack machine makes the expression again. -/
theorem Spellable.push_postorder (declared : ∀ name ∈ names, name ∈ bindings.map (·.name))
    (spellable : Spellable names tree) (reads : tree.LiteralsReadBack) (stack : List (Node α)) :
    tree.phrase.tree.postorder.foldlM (Node.assembler bindings {} none).push stack =
      .ok (tree :: stack) := by
  induction spellable generalizing stack with
  | @constant value printable unsigned =>
      obtain ⟨node, same, _, _, pushed⟩ :=
        push_postorder_constant bindings printable (reads value (by simp [constants])) stack
      rw [pushed, same unsigned]
  | @var name known =>
      simp only [phrase, Phrase.ofToken, OperatorTree.postorder_node,
        OperatorTree.forestPostorder_nil, List.nil_append, List.foldlM_cons,
        push_var (declared name known), Bind.bind, Except.bind]
      rfl
  | @negation operand inner ih =>
      simp only [phrase, Phrase.signed, Phrase.tree_groupedIf, OperatorTree.postorder_node,
        OperatorTree.forestPostorder_cons, OperatorTree.forestPostorder_nil, List.append_nil,
        List.foldlM_append, ih reads, Bind.bind, Except.bind, List.foldlM_cons, push_minus]
      rfl
  | @call function operand inner ih =>
      simp only [phrase, Phrase.call, OperatorTree.postorder_node,
        OperatorTree.forestPostorder_cons, OperatorTree.forestPostorder_nil, List.append_nil,
        List.foldlM_append, ih reads, Bind.bind, Except.bind, List.foldlM_cons, push_call]
      rfl
  | @binary operation left right first second apart firstIH secondIH =>
      obtain ⟨readsFirst, readsSecond⟩ := List.forall_mem_append.mp reads
      simp only [phrase, Phrase.joined, Phrase.tree_groupedIf, OperatorTree.postorder_node,
        OperatorTree.forestPostorder_cons, OperatorTree.forestPostorder_nil, List.append_nil,
        List.foldlM_append, firstIH readsFirst, secondIH readsSecond, Bind.bind, Except.bind,
        List.foldlM_cons, push_binary]
      rfl
  | @power base exponent inner printable ih =>
      obtain ⟨readsBase, readsExponent⟩ := List.forall_mem_append.mp reads
      obtain ⟨node, _, fixed, worth, pushed⟩ := push_postorder_constant bindings printable
        (readsExponent exponent (by simp [constants])) (base :: stack)
      rw [phrase]
      simp only [Phrase.joined, Phrase.tree_groupedIf, OperatorTree.postorder_node,
        OperatorTree.forestPostorder_cons, OperatorTree.forestPostorder_nil, List.append_nil,
        List.foldlM_append, ih readsBase, pushed, Bind.bind, Except.bind, List.foldlM_cons,
        push_caret fixed, worth]
      rfl

end

end Node

/-- A name that a variable can have: one word, and kept neither for a constant nor for a function.
-/
def isVariableName (name : String) : Bool :=
  isIdentifier name && !NamedConstant.isName name && (FunctionSymbol.builtin? name).isNone

namespace Compiler

variable {α : Type} {bindings : List (Variable α)} {text : String}

/-- Where no name has two meanings, words that are declared are read as names. -/
theorem covers_vocabulary {names : List String}
    (apart : Expression.collision? ⟨text, ({ bindings } : Compiler α).vocabulary, true⟩ = none)
    (declared : ∀ name ∈ names, name ∈ bindings.map (·.name))
    (identifiers : ∀ name ∈ names, isIdentifier name = true) :
    (Expression.fullVocabulary ⟨text, ({ bindings } : Compiler α).vocabulary, true⟩).lexicon.Covers
      names where
  operators := Vocabulary.lexicon_hasBuiltinOperators rfl
  identifier := identifiers
  name name member := by
    have among : name ∈ bindings.map (·.name) ++ NamedConstant.names :=
      List.mem_append_left _ (declared name member)
    change (if (bindings.map (·.name) ++ NamedConstant.names).contains name then _ else _) = _
    rw [List.contains_iff_mem.mpr among]
    rfl
  function function := by
    have noName : function.name ∉ bindings.map (·.name) ++ NamedConstant.names := by
      intro isName
      have builtin : function.name ∈ FunctionSymbol.unaryNames := by cases function <;> decide
      exact (Expression.collision?_eq_none_iff.mp apart).2 function.name
        ⟨isName, .inr (.inl builtin)⟩
    have absent : (bindings.map (·.name) ++ NamedConstant.names).contains function.name = false :=
      Bool.eq_false_iff.mpr (List.contains_iff_mem.not.mpr noName)
    change (if (bindings.map (·.name) ++ NamedConstant.names).contains function.name then _
      else _) = _
    rw [absent]
    cases function <;> rfl

theorem collision?_eq_none (named : ∀ binding ∈ bindings, isVariableName binding.name = true) :
    Expression.collision? ⟨text, ({ bindings } : Compiler α).vocabulary, true⟩ = none := by
  have free : ∀ name ∈ bindings.map (·.name), NamedConstant.isName name = false ∧
      FunctionSymbol.builtin? name = none := by
    intro name declared
    obtain ⟨binding, isBinding, rfl⟩ := List.mem_map.mp declared
    have known := named binding isBinding
    simp only [isVariableName, Bool.and_eq_true, Bool.not_eq_true', Option.isNone_iff_eq_none]
      at known
    exact ⟨known.1.2, known.2⟩
  have constants : ∀ name ∈ NamedConstant.names, (FunctionSymbol.builtin? name).isSome = false := by
    decide
  refine Expression.collision?_eq_none_iff.mpr ⟨fun name declared isConstant => ?_, ?_⟩
  · have notConstant := (free name declared).1
    rw [NamedConstant.isName, List.contains_iff_mem.mpr isConstant] at notConstant
    contradiction
  · rintro name ⟨isName, hasFunction⟩
    have builtin : (FunctionSymbol.builtin? name).isSome = true :=
      Vocabulary.isSome_function?_iff.mpr hasFunction
    rcases List.mem_append.mp isName with declared | isConstant
    · rw [(free name declared).2] at builtin
      contradiction
    · rw [constants name isConstant] at builtin
      contradiction

theorem visible_of_tokens {lexicon : Lexicon} {text : String} {located : List Located}
    (lexed : lexicon.tokens text = .ok located) (nonempty : located ≠ []) :
    text.toList.all Character.isBlank = false := by
  rw [Bool.eq_false_iff]
  intro blank
  have skipped (letters : List Char) (position : Nat)
      (allBlank : ∀ letter ∈ letters, Character.isBlank letter = true) :
      lexicon.scan 0 position none letters = .ok [] := by
    induction letters generalizing position with
    | nil => rfl
    | cons first rest ih =>
        obtain ⟨here, further⟩ := List.forall_mem_cons.mp allBlank
        simp only [Lexicon.scan, here, ↓reduceIte]
        exact ih (position + 1) further
  rw [Lexicon.tokens, skipped text.toList 0 (List.all_eq_true.mp blank)] at lexed
  cases lexed
  contradiction

variable [Numeral α] [LawfulNumeral α] {tree : Node α} {names : List String}

/-- The text of an expression over declared words is read as its phrase. -/
theorem rpn_text_of_words
    (apart : Expression.collision? ⟨tree.text, ({ bindings } : Compiler α).vocabulary, true⟩ = none)
    (declared : ∀ name ∈ names, name ∈ bindings.map (·.name))
    (identifiers : ∀ name ∈ names, isIdentifier name = true) (spellable : tree.Spellable names) :
    ({ bindings } : Compiler α).expression tree.text =
        .ok ⟨tree.text, ({ bindings } : Compiler α).vocabulary, true⟩ ∧
      Expression.rpn ⟨tree.text, ({ bindings } : Compiler α).vocabulary, true⟩ =
        .ok tree.phrase.tree.postorder := by
  have covers := covers_vocabulary apart declared identifiers
  obtain ⟨located, lexed, spelled⟩ := (spellable.spells covers).tokens_eq
  have accepted := spellable.written.ofText_eq_ok lexed spelled true
  have nonempty : located ≠ [] := by
    rintro rfl
    have ordered := spellable.written.order_eq_ok
    rw [← spelled] at ordered
    exact tree.phrase.tree.postorder_ne_nil (Except.ok.inj ordered).symm
  constructor
  · exact expression_eq_ok (visible_of_tokens lexed nonempty)
      (by simp [Extensions.operatorDefinitions])
  · simp only [Expression.rpn, apart]
    rw [accepted]
    rfl

/-- A legible expression over declared words is what its text compiles to. -/
theorem compile_text_of_words
    (apart : Expression.collision? ⟨tree.text, ({ bindings } : Compiler α).vocabulary, true⟩ = none)
    (declared : ∀ name ∈ names, name ∈ bindings.map (·.name))
    (identifiers : ∀ name ∈ names, isIdentifier name = true) (legible : tree.Legible names) :
    ({ bindings } : Compiler α).compile tree.text = .ok tree := by
  obtain ⟨made, ordered⟩ := rpn_text_of_words apart declared identifiers legible.spellable
  obtain ⟨_, admitted, _⟩ := rpn_wellFormed made ordered
  have pushed := legible.spellable.push_postorder declared legible.reads []
  have built := (Assembler.build_eq_ok_iff rfl admitted tree).mpr pushed
  simp only [compile, made, ordered, Bind.bind, Except.bind]
  exact built

theorem compile_text_of_legible
    (named : ∀ binding ∈ bindings, isVariableName binding.name = true)
    (legible : tree.Legible (bindings.map (·.name))) :
    ({ bindings } : Compiler α).compile tree.text = .ok tree := by
  refine compile_text_of_words (collision?_eq_none named) (fun _ declared => declared) ?_ legible
  rintro name declared
  obtain ⟨binding, isBinding, rfl⟩ := List.mem_map.mp declared
  have known := named binding isBinding
  simp only [isVariableName, Bool.and_eq_true] at known
  exact known.1.1

end Compiler

/-- Expressions that the formulas over some variables compile to, and derivatives of those. -/
inductive Node.IsDerived (bindings : List (Variable Float)) : Node Float → Prop
  | compiled {text : String} {tree : Node Float}
      (compiles : ({ bindings } : Compiler Float).compile text = .ok tree) : IsDerived bindings tree
  | derivative {tree : Node Float} (derived : IsDerived bindings tree)
      (present : Assignment Float) (name : String) :
      IsDerived bindings (tree.derivative present name)

/-- The text of the expression compiles to an expression of the same text and the same exact value.
-/
def Node.RoundTrips (bindings : List (Variable Float)) (tree : Node Float) : Prop :=
  ∃ compiled, ({ bindings } : Compiler Float).compile tree.text = .ok compiled ∧
    compiled.text = tree.text ∧
      ∀ (K : Type) [ExactField K] [DecidableEq K] (assignment : Assignment K),
        (compiled.map (exactIn K)).value assignment = (tree.map (exactIn K)).value assignment

namespace Compiler

variable {bindings : List (Variable Float)} {tree : Node Float}

theorem isOver_of_isDerived (derived : tree.IsDerived bindings) :
    tree.isOver (bindings.map (·.name)) = true := by
  induction derived with
  | compiled compiles =>
      exact @isOver_of_compile Float _ { bindings } _ _ rfl compiles
  | derivative derived present name ih =>
      exact (Node.isHereditary_isOver _).derivative ih present name

/-- The text of an expression with finite constants and literal exponents, over variables with names
of their own, compiles to an expression of the same text and value; the same holds of all
expressions that come from compiling and differentiating. What is taken for granted is that reading
the plain text of a number without a sign gives the number. -/
theorem compile_text (named : ∀ binding ∈ bindings, isVariableName binding.name = true)
    (origin : tree.isOver (bindings.map (·.name)) = true ∨ tree.IsDerived bindings)
    (finite : ∀ value ∈ tree.constants, value.isFinite = true)
    (readable : ∀ value ∈ tree.constants, PlainReadsBack value.abs) : tree.RoundTrips bindings := by
  have known := origin.elim id isOver_of_isDerived
  have compiled := compile_text_of_legible named (Node.legible_reread known finite readable)
  rw [tree.text_reread] at compiled
  exact ⟨tree.reread, compiled, tree.text_reread, fun K _ _ assignment => tree.value_reread⟩

/-- `x + (-0.5 * y^(-2) - -x)` loses a pair of parentheses. -/
theorem compile_text_of_sum :
    let tree : Node Float := .binary .add (.var "x") (.binary .sub (.binary .mul (.constant (-0.5))
      (.power (.var "y") (.constant (-2)))) (.negation (.var "x")))
    let bindings : List (Variable Float) := [⟨"x", 1⟩, ⟨"y", 2⟩]
    (∀ binding ∈ bindings, isVariableName binding.name = true) ∧
    tree.isOver (bindings.map (·.name)) = true ∧
    (∀ value ∈ tree.constants, value.isFinite = true) ∧
    (∀ value ∈ tree.constants, PlainReadsBack value.abs) ∧
    tree.text = "x + -0.5 * y^(-2) - -x" ∧ tree.RoundTrips bindings := by
  intro tree bindings
  have named : ∀ binding ∈ bindings, isVariableName binding.name = true := by
    simp only [bindings, List.forall_mem_cons]
    decide
  have known : tree.isOver (bindings.map (·.name)) = true := by decide
  have finite : ∀ value ∈ tree.constants, value.isFinite = true := by decide +kernel
  have readable : ∀ value ∈ tree.constants, PlainReadsBack value.abs := by decide +kernel
  exact ⟨named, known, finite, readable, by decide +kernel,
    compile_text named (.inl known) finite readable⟩

end Compiler

end Formula
