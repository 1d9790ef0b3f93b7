import Formula.Compiler
import Formula.Proofs.Token.Meaning

namespace Formula

/-! What a compiler declares, and what its formulas can therefore mention.

A compiler hands its names, functions and operators to the expression and keeps the expansions for
assembly. Both look a name up in the same lists, so they find the same definition.
-/

namespace Vocabulary

theorem foldl_declareFunction (vocabulary : Vocabulary) (definitions : List FunctionSymbol) :
    definitions.foldl declareFunction vocabulary =
      { vocabulary with functions := definitions.reverse ++ vocabulary.functions } := by
  induction definitions generalizing vocabulary with
  | nil => rfl
  | cons first others ih => simp [ih, declareFunction]

theorem foldl_declareName (vocabulary : Vocabulary) (names : List String) :
    names.foldl declareName vocabulary =
      { vocabulary with names := vocabulary.names ++ names } := by
  induction names generalizing vocabulary with
  | nil => simp
  | cons first others ih => simp [ih, declareName]

end Vocabulary

theorem Extensions.eq_empty {N : Type} {extensions : Extensions N}
    (empty : extensions.isEmpty = true) : extensions = {} := by
  obtain ⟨functions, operators⟩ := extensions
  simpa [isEmpty] using empty

theorem Expression.eq_of_declareOperators {expression declared : Expression}
    {definitions : List Operator}
    (succeeds : expression.declareOperators definitions = .ok declared) :
    declared = { expression with vocabulary := { expression.vocabulary with
      operators := definitions.reverse ++ expression.vocabulary.operators } } := by
  induction definitions generalizing expression with
  | nil =>
      obtain rfl : expression = declared := by
        simpa [declareOperators, pure, Except.pure] using succeeds
      rfl
  | cons first others ih =>
      simp only [declareOperators, List.foldlM_cons, declareOperator] at succeeds
      split at succeeds
      case isTrue =>
        have later := ih succeeds
        simpa [Vocabulary.declareOperator] using later
      case isFalse => contradiction

theorem Expression.isSymbol_of_declareOperators {expression declared : Expression}
    {definitions : List Operator}
    (succeeds : expression.declareOperators definitions = .ok declared) :
    ∀ definition ∈ definitions, isSymbol definition.symbol = true := by
  induction definitions generalizing expression with
  | nil => simp
  | cons first others ih =>
      simp only [declareOperators, List.foldlM_cons, declareOperator] at succeeds
      split at succeeds
      case isTrue here => exact List.forall_mem_cons.mpr ⟨here, ih succeeds⟩
      case isFalse => contradiction

theorem Expression.declareOperators_eq_ok {definitions : List Operator}
    (symbols : ∀ definition ∈ definitions, isSymbol definition.symbol = true)
    (expression : Expression) :
    expression.declareOperators definitions = .ok { expression with
      vocabulary := { expression.vocabulary with
        operators := definitions.reverse ++ expression.vocabulary.operators } } := by
  induction definitions generalizing expression with
  | nil => rfl
  | cons first others ih =>
      obtain ⟨here, further⟩ := List.forall_mem_cons.mp symbols
      have declared : expression.declareOperator first = .ok { expression with
          vocabulary := expression.vocabulary.declareOperator first } := by
        rw [declareOperator, if_pos here]
      have later := ih further { expression with
        vocabulary := expression.vocabulary.declareOperator first }
      rw [declareOperators] at later
      rw [declareOperators, List.foldlM_cons, declared]
      change List.foldlM declareOperator _ others = _
      rw [later]
      simp [Vocabulary.declareOperator]

namespace Compiler

variable {α : Type}

/-- The names, functions and operators of the compiler. -/
def vocabulary (compiler : Compiler α) : Vocabulary where
  names := compiler.names
  functions := compiler.extensions.functionSymbols
  operators := compiler.extensions.operatorDefinitions

theorem eq_of_expression {compiler : Compiler α} {text : String} {expression : Expression}
    (made : compiler.expression text = .ok expression) :
    expression = ⟨text, compiler.vocabulary, compiler.juxtaposition⟩ := by
  simp only [Compiler.expression, Expression.ofText?] at made
  split at made
  · contradiction
  simp only [Bind.bind, Except.bind, Expression.declareFunctions,
    Vocabulary.foldl_declareFunction, List.reverse_reverse, List.append_nil] at made
  split at made
  · contradiction
  case h_2 declared operators =>
    cases made
    rw [Expression.eq_of_declareOperators operators]
    simp [Expression.declareNames, Vocabulary.foldl_declareName, vocabulary]

theorem expression_eq_ok {compiler : Compiler α} {text : String}
    (visible : text.toList.all Character.isBlank = false)
    (symbols : ∀ definition ∈ compiler.extensions.operatorDefinitions,
      Expression.isSymbol definition.symbol = true) :
    compiler.expression text = .ok ⟨text, compiler.vocabulary, compiler.juxtaposition⟩ := by
  have declared := Expression.declareOperators_eq_ok
    (fun definition member => symbols definition (List.mem_reverse.mp member))
    ⟨text, { functions := compiler.extensions.functionSymbols }, compiler.juxtaposition⟩
  simp only [Compiler.expression, Expression.ofText?, visible, Bool.false_eq_true, ↓reduceIte,
    Bind.bind, Except.bind, Expression.declareFunctions, Vocabulary.foldl_declareFunction,
    List.reverse_reverse, List.append_nil]
  rw [declared]
  simp [Expression.declareNames, Vocabulary.foldl_declareName, vocabulary, pure, Except.pure]

/-- Whether a compiler makes an expression of a text depends on whether the text is blank. -/
theorem expression_eq_ok_of_expression {compiler : Compiler α} {text other : String}
    {expression : Expression} (made : compiler.expression text = .ok expression)
    (visible : other.toList.all Character.isBlank = false) (juxtaposition : Bool) :
    ({ compiler with juxtaposition } : Compiler α).expression other =
      .ok ⟨other, compiler.vocabulary, juxtaposition⟩ := by
  refine @expression_eq_ok α { compiler with juxtaposition } other visible ?_
  simp only [Compiler.expression, Expression.ofText?] at made
  split at made
  · contradiction
  simp only [Bind.bind, Except.bind] at made
  split at made
  · contradiction
  case h_2 declared operators =>
    intro definition member
    exact Expression.isSymbol_of_declareOperators operators definition (List.mem_reverse.mpr member)

/-- The assembler that the compiler builds its trees with. -/
def assembler [Scalar α] (compiler : Compiler α) : Assembler α (Node α) :=
  Node.assembler compiler.bindings compiler.extensions compiler.maxDepth

variable {compiler : Compiler α} {text : String} {rpn : List Token}

theorem declaredFunction?_eq (compiler : Compiler α) (name : String) :
    compiler.vocabulary.declaredFunction? name =
      (compiler.extensions.function? name).map (·.definition) := by
  simp only [Vocabulary.declaredFunction?, vocabulary, Extensions.functionSymbols,
    Extensions.function?, List.find?_map, Function.comp_def]

section

variable [Numeral α] {expression : Expression}

theorem compile_eq_build (made : compiler.expression text = .ok expression) :
    compiler.compile text = expression.rpn.bind compiler.assembler.build := by
  rw [compile, made]
  rfl

theorem exists_rpn_of_compile {tree : Node α} (compiled : compiler.compile text = .ok tree) :
    ∃ expression rpn, compiler.expression text = .ok expression ∧ expression.rpn = .ok rpn ∧
      compiler.assembler.build rpn = .ok tree := by
  cases made : compiler.expression text with
  | error reason => simp [compile, made, Bind.bind, Except.bind] at compiled
  | ok expression =>
      rw [compile_eq_build made] at compiled
      cases ordered : expression.rpn with
      | error reason => simp [ordered, Except.bind] at compiled
      | ok rpn =>
          rw [ordered] at compiled
          exact ⟨expression, rpn, rfl, ordered, compiled⟩

end

/-- A function that no extension of its name replaces is the built-in one. -/
theorem eq_builtin_of_function? {name : String} {function : FunctionSymbol}
    (found : compiler.vocabulary.function? name = some function)
    (unreplaced : compiler.extensions.function? function.name = none) :
    FunctionSymbol.builtin? function.name = some function := by
  rcases Option.or_eq_some_iff.mp found with declared | ⟨_, builtin⟩
  · rw [declaredFunction?_eq] at declared
    obtain ⟨custom, extension, rfl⟩ := Option.map_eq_some_iff.mp declared
    obtain rfl : custom.definition.name = name := by simpa using List.find?_some extension
    rw [extension] at unreplaced
    contradiction
  · obtain rfl : function.name = name := FunctionSymbol.name_of_builtin? builtin
    exact builtin

/-- A function that an extension of its name replaces is the one that the extension defines. -/
theorem eq_definition_of_function? {name : String} {function : FunctionSymbol}
    {custom : CustomFunction (Node α)}
    (found : compiler.vocabulary.function? name = some function)
    (replaced : compiler.extensions.function? function.name = some custom) :
    custom.definition = function := by
  rcases Option.or_eq_some_iff.mp found with declared | ⟨undeclared, builtin⟩
  · rw [declaredFunction?_eq] at declared
    obtain ⟨first, extension, rfl⟩ := Option.map_eq_some_iff.mp declared
    obtain rfl : first.definition.name = name := by simpa using List.find?_some extension
    obtain rfl : first = custom := Option.some.inj (extension.symm.trans replaced)
    rfl
  · obtain rfl : function.name = name := FunctionSymbol.name_of_builtin? builtin
    rw [declaredFunction?_eq, replaced] at undeclared
    contradiction

end Compiler

end Formula
