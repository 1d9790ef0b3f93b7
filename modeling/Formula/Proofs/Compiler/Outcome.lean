import Formula.Proofs.Assembly.Consumption
import Formula.Proofs.Compiler.Declarations
import Formula.Proofs.Rpn.Conservation
import Formula.Proofs.Token.Products

namespace Formula

/-! How a compilation can end.

What ordering and balance accept is enough for assembly: every token of the RPN takes as many nodes
as it counts operands, and every name in it is declared. So assembly never runs out of tokens, never
has any left and never meets a name that it does not know.
-/

open CompileError

/-- The RPN of a formula has tokens that make values: those of the text and products. -/
theorem Rpn.mem_of_ofText {lexicon : Lexicon} {juxtaposition : Bool} {text : String}
    {rpn : List Token} (accepted : ofText lexicon juxtaposition text = .ok rpn) :
    ∃ tokens, lexicon.tokens text = .ok tokens ∧ ∀ token ∈ rpn, token.isPunctuation = false ∧
      (token ∈ tokens.map Located.token ∨ token = .operator .times) := by
  obtain ⟨tokens, ordered, lexed, run, rfl, _⟩ := exists_run_of_ofText accepted
  refine ⟨tokens, lexed, fun token member => ?_⟩
  obtain ⟨item, isOrdered, rfl⟩ := List.mem_map.mp member
  refine ⟨by simpa [makesValue] using run.makesValue_of_mem isOrdered, ?_⟩
  have waiting : Waiting ([] : List Located) := fun other isPending => by simp at isPending
  have isRead := List.mem_of_mem_filter ((run.perm waiting).mem_iff.mp isOrdered)
  rw [List.nil_append] at isRead
  cases juxtaposition with
  | false => exact .inl (List.mem_map_of_mem isRead)
  | true =>
      have inserted := List.mem_map_of_mem (f := Located.token) isRead
      simp only [↓reduceIte, insertProducts_map_token] at inserted
      exact mem_insertProducts inserted

theorem Expression.ofText_of_rpn {expression : Expression} {rpn : List Token}
    (ordered : expression.rpn = .ok rpn) :
    Rpn.ofText expression.fullVocabulary.lexicon expression.juxtaposition expression.text =
      .ok rpn := by
  simp only [Expression.rpn] at ordered
  split at ordered
  · contradiction
  · cases accepted : Rpn.ofText expression.fullVocabulary.lexicon expression.juxtaposition
        expression.text with
    | error reason => simp [accepted, Except.mapError] at ordered
    | ok given => simpa [accepted, Except.mapError] using ordered

namespace Compiler

section

variable {α : Type} [Numeral α] {compiler : Compiler α} {text : String} {expression : Expression}
variable {rpn : List Token}

theorem variableNode_exists {name : String} (known : name ∈ compiler.names ++ NamedConstant.names) :
    ∃ node, compiler.assembler.variableNode name = .ok node := by
  simp only [Assembler.variableNode, assembler, Node.assembler]
  cases bound : Variable.find? compiler.bindings name with
  | some found => exact ⟨_, rfl⟩
  | none =>
      have unbound : name ∉ compiler.names := by
        intro member
        obtain ⟨binding, isBinding, rfl⟩ := List.mem_map.mp member
        have absent := List.find?_eq_none.mp bound binding isBinding
        simp at absent
      have constant := (List.mem_append.mp known).resolve_left unbound
      simp only [NamedConstant.names, List.mem_cons, List.not_mem_nil, or_false] at constant
      rcases constant with rfl | rfl | rfl | rfl <;> exact ⟨_, rfl⟩

omit [Numeral α] in
/-- A function in the RPN that a compiler gives to assembly is one that the compiler knows. -/
theorem function?_of_mem_rpn (made : compiler.expression text = .ok expression)
    (ordered : expression.rpn = .ok rpn) {function : FunctionSymbol}
    (member : .function function ∈ rpn) :
    ∃ word, compiler.vocabulary.function? word = some function := by
  have accepted := expression.ofText_of_rpn ordered
  obtain rfl := eq_of_expression made
  obtain ⟨tokens, lexed, origins⟩ := Rpn.mem_of_ofText accepted
  have isRead : (Word.function function).token ∈ tokens.map Located.token :=
    (origins _ member).2.resolve_right (by simp)
  obtain ⟨word, known⟩ := Lexicon.word?_of_mem_scan lexed isRead
  have isFunction := Vocabulary.function?_of_word? known
  exact ⟨word, isFunction⟩

/-- The RPN that a compiler gives to assembly makes one value, its functions have the arity that
assembly expects, and its names are known. -/
theorem rpn_wellFormed (made : compiler.expression text = .ok expression)
    (ordered : expression.rpn = .ok rpn) :
    Rpn.balance rpn = .ok () ∧ (∀ token ∈ rpn, compiler.assembler.Admits token) ∧
      compiler.assembler.Knows rpn := by
  have functions (function : FunctionSymbol) (member : .function function ∈ rpn) :=
    function?_of_mem_rpn made ordered member
  have accepted := expression.ofText_of_rpn ordered
  obtain rfl := eq_of_expression made
  obtain ⟨_, _, _, _, _, balanced⟩ := Rpn.exists_run_of_ofText accepted
  obtain ⟨tokens, lexed, origins⟩ := Rpn.mem_of_ofText accepted
  refine ⟨balanced, fun token isToken => ?_, fun name isName => ?_⟩
  · have values := (origins token isToken).1
    cases token with
    | function function =>
        obtain ⟨word, isFunction⟩ := functions function isToken
        intro unreplaced builtin isBuiltin
        have same := eq_builtin_of_function? isFunction unreplaced
        rw [same] at isBuiltin
        cases isBuiltin
        rfl
    | number value => exact trivial
    | var name => exact trivial
    | operator operator => exact trivial
    | openParen => contradiction
    | closeParen => contradiction
    | comma => contradiction
  · have isRead : (Word.name name).token ∈ tokens.map Located.token :=
      (origins _ isName).2.resolve_right (by simp)
    obtain ⟨word, known⟩ := Lexicon.word?_of_mem_scan lexed isRead
    exact variableNode_exists (Vocabulary.mem_names_of_word? known)

/-- The tokens of the RPN are used up exactly, or one of them cannot be built. -/
theorem foldlM_step_outcome (made : compiler.expression text = .ok expression)
    (ordered : expression.rpn = .ok rpn) :
    Outcome IsUnbuildable (∃ root, · = Progress.complete root)
      (rpn.reverse.foldlM compiler.assembler.step (.reading [])) := by
  obtain ⟨balanced, admitted, known⟩ := rpn_wellFormed made ordered
  exact Assembler.foldlM_step_of_balance balanced admitted known

omit [Numeral α] in
theorem stage_of_expression_error {reason : CompileError}
    (failed : compiler.expression text = .error reason) : reason.stage = .configuration := by
  have symbols {expression : Expression} {definitions : List Operator}
      (failed : expression.declareOperators definitions = .error reason) :
      reason.stage = .configuration := by
    induction definitions generalizing expression with
    | nil => contradiction
    | cons first others ih =>
        simp only [Expression.declareOperators, List.foldlM_cons, Expression.declareOperator]
          at failed
        split at failed
        · exact ih failed
        · cases failed
          rfl
  simp only [Compiler.expression, Expression.ofText?] at failed
  split at failed
  · cases failed
    rfl
  · simp only [Bind.bind, Except.bind] at failed
    split at failed
    case h_1 cause operators =>
      cases failed
      exact symbols operators
    · contradiction

theorem stage_of_rpn_error {reason : CompileError} (failed : expression.rpn = .error reason) :
    reason.stage = .configuration ∨ reason.stage = .tokenization := by
  simp only [Expression.rpn] at failed
  split at failed
  · cases failed
    exact .inl rfl
  · cases outcome : Rpn.ofText expression.fullVocabulary.lexicon expression.juxtaposition
        expression.text with
    | error cause =>
        simp only [outcome, Except.mapError] at failed
        cases failed
        exact .inr rfl
    | ok given => simp [outcome, Except.mapError] at failed

/-- A formula is refused before assembly, or a token cannot be built. -/
theorem stage_or_isUnbuildable_of_compile_error {reason : CompileError}
    (failed : compiler.compile text = .error reason) :
    reason.stage ≠ .treeBuilding ∨ reason.IsUnbuildable := by
  simp only [compile, Bind.bind, Except.bind] at failed
  split at failed
  case h_1 cause made =>
    cases failed
    rw [stage_of_expression_error made]
    exact .inl (by decide)
  case h_2 expression made =>
    split at failed
    case h_1 cause ordered =>
      cases failed
      rcases stage_of_rpn_error ordered with stage | stage <;> rw [stage] <;> exact .inl (by decide)
    case h_2 rpn ordered =>
      have outcome := foldlM_step_outcome made ordered
      simp only [Assembler.build, Bind.bind, Except.bind] at failed
      split at failed
      case h_1 cause stopped =>
        cases failed
        rw [assembler, stopped] at outcome
        exact .inr outcome
      case h_2 progress reached =>
        rw [assembler, reached] at outcome
        obtain ⟨root, rfl⟩ := outcome
        contradiction

/-- Assembly uses up exactly the tokens of the RPN or meets one that it cannot build. So no formula,
whatever it is compiled with, fails because tokens run out, are left over or are out of place, or
because of a name that is not bound. -/
theorem compile_exhausts_rpn (compiler : Compiler α) (text : String) :
    (∀ expression rpn, compiler.expression text = .ok expression → expression.rpn = .ok rpn →
      Outcome IsUnbuildable (∃ root, · = Progress.complete root)
        (rpn.reverse.foldlM compiler.assembler.step (.reading []))) ∧
    compiler.compile text ≠ .error .unexpectedEnd ∧
    compiler.compile text ≠ .error .trailingTokens ∧
    compiler.compile text ≠ .error .strayComma ∧
    ∀ name, compiler.compile text ≠ .error (.unknownVariable name) := by
  have excluded (reason : CompileError) (late : reason.stage = .treeBuilding)
      (buildable : ¬ reason.IsUnbuildable) : compiler.compile text ≠ .error reason := fun failed =>
    (stage_or_isUnbuildable_of_compile_error failed).elim (absurd late) buildable
  exact ⟨fun expression rpn made ordered => foldlM_step_outcome made ordered,
    excluded _ rfl id, excluded _ rfl id, excluded _ rfl id, fun name => excluded _ rfl id⟩

end

/-- `f(x!, 2x)` with a function and a suffix of the user, and a limit that the tree exceeds. -/
theorem compile_exhausts_rpn_of_call :
    let suffix : Operator := ⟨"!", 1, true, 10001⟩
    let compiler : Compiler Float :=
      { bindings := [⟨"x", 3⟩]
        extensions :=
          { functions := [⟨⟨"f", 2⟩, (·.foldr (.binary .sub) (.constant 0))⟩]
            operators := [⟨suffix, (·.foldr (fun operand _ => .negation operand) (.constant 0))⟩] }
        maxDepth := some 2 }
    let rpn := [Token.var "x", .operator suffix, .number 2, .var "x", .operator .times,
      .function ⟨"f", 2⟩]
    compiler.expression "f(x!, 2x)" = .ok ⟨"f(x!, 2x)", compiler.vocabulary, true⟩ ∧
    Expression.rpn ⟨"f(x!, 2x)", compiler.vocabulary, true⟩ = .ok rpn ∧
    Outcome IsUnbuildable (∃ root, · = Progress.complete root)
      (rpn.reverse.foldlM compiler.assembler.step (.reading [])) ∧
    compiler.compile "f(x!, 2x)" ≠ .error .unexpectedEnd := by
  intro suffix compiler rpn
  have made : compiler.expression "f(x!, 2x)" = .ok ⟨"f(x!, 2x)", compiler.vocabulary, true⟩ :=
    expression_eq_ok (by decide) (by decide)
  have ordered : Expression.rpn ⟨"f(x!, 2x)", compiler.vocabulary, true⟩ = .ok rpn := by
    decide +kernel
  have exhausts := compile_exhausts_rpn compiler "f(x!, 2x)"
  exact ⟨made, ordered, exhausts.1 _ _ made ordered, exhausts.2.1⟩

end Compiler

end Formula
