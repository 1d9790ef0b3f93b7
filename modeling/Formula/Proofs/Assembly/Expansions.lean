import Formula.Proofs.Assembly.Descent
import Formula.Proofs.Compiler.Outcome

namespace Formula

/-! With how many operands expansions are called.

An extension is defined for so many operands, and its expansion need not make sense of others. So it
must not matter what an expansion does with operands that are more or fewer. Two assemblies whose
expansions differ only there are run side by side: they open frames that make the same of as many
operands as they lack.
-/

variable {α N : Type}

/-- The two make the same of so many operands. -/
def AgreeOn (count : Nat) (expand other : List N → N) : Prop :=
  ∀ operands, operands.length = count → expand operands = other operands

/-- What the expansion makes of so many operands, and something else of more or fewer. -/
def restricted (count : Nat) (expand : List N → N) (otherwise : N) (operands : List N) : N :=
  if operands.length = count then expand operands else otherwise

theorem agreeOn_restricted (count : Nat) (expand : List N → N) (otherwise : N) :
    AgreeOn count expand (restricted count expand otherwise) :=
  fun _ exact => (if_pos exact).symm

/-- The same functions and operators are defined, and their expansions agree on as many operands as
they are defined for. -/
structure Extensions.Agree (extensions others : Extensions N) : Prop where
  functions (name : String) :
    Option.Rel (fun custom other => custom.definition = other.definition ∧
        AgreeOn custom.definition.arity custom.expand other.expand)
      (extensions.function? name) (others.function? name)
  operators (symbol : String) :
    Option.Rel (fun custom other => custom.definition = other.definition ∧
        AgreeOn custom.definition.operands custom.expand other.expand)
      (extensions.operator? symbol) (others.operator? symbol)

namespace Extensions

theorem agree_empty : Agree ({} : Extensions N) {} := ⟨fun _ => .none, fun _ => .none⟩

theorem Agree.declareFunction {extensions others : Extensions N} (agree : extensions.Agree others)
    {definition : FunctionSymbol} {expand other : List N → N}
    (same : AgreeOn definition.arity expand other) :
    (extensions.declareFunction ⟨definition, expand⟩).Agree
      (others.declareFunction ⟨definition, other⟩) where
  functions name := by
    simp only [function?, Extensions.declareFunction, List.find?_cons]
    split
    · exact .some ⟨rfl, same⟩
    · exact agree.functions name
  operators := agree.operators

theorem Agree.declareOperator {extensions others : Extensions N} (agree : extensions.Agree others)
    {definition : Operator} {expand other : List N → N}
    (same : AgreeOn definition.operands expand other) :
    (extensions.declareOperator ⟨definition, expand⟩).Agree
      (others.declareOperator ⟨definition, other⟩) where
  functions := agree.functions
  operators symbol := by
    simp only [operator?, Extensions.declareOperator, List.find?_cons]
    split
    · exact .some ⟨rfl, same⟩
    · exact agree.operators symbol

end Extensions

/-- Both outcomes are results that are related, or both are the same failure. -/
inductive Parallel {β γ : Type} (related : β → γ → Prop) :
    Except CompileError β → Except CompileError γ → Prop
  | ok {first : β} {second : γ} (both : related first second) :
      Parallel related (.ok first) (.ok second)
  | error (reason : CompileError) : Parallel related (.error reason) (.error reason)

theorem Parallel.bind {β γ δ ε : Type} {related : β → γ → Prop} {next : δ → ε → Prop}
    {one : Except CompileError β} {other : Except CompileError γ}
    (parallel : Parallel related one other)
    {first : β → Except CompileError δ} {second : γ → Except CompileError ε}
    (each : ∀ value result, related value result → Parallel next (first value) (second result)) :
    Parallel next (one >>= first) (other >>= second) := by
  cases parallel with
  | ok both => exact each _ _ both
  | error reason => exact .error reason

namespace Frame

/-- The frames lack as many operands, and make the same of them. -/
structure Agree (frame other : Frame N) : Prop where
  lacks : frame.lacks = other.lacks
  closed (operands : List N) (count : operands.length = frame.lacks) :
    frame.closed operands = other.closed operands

theorem Agree.refl (frame : Frame N) : Agree frame frame := ⟨rfl, fun _ _ => rfl⟩

theorem Agree.given {frame other : Frame N} (agree : frame.Agree other) (more : 1 < frame.lacks)
    (node : N) : (frame.given node).Agree (other.given node) := by
  have remaining : (frame.given node).lacks + 1 = frame.lacks := lacks_given more
  have otherMore : 1 < other.lacks := agree.lacks ▸ more
  have otherRemaining : (other.given node).lacks + 1 = other.lacks := lacks_given otherMore
  refine ⟨by have := agree.lacks; omega, fun operands count => ?_⟩
  have several : operands ≠ [] := List.ne_nil_of_length_pos (by omega)
  rw [closed_given (by omega) several, closed_given (by have := agree.lacks; omega) several]
  exact agree.closed _ (by rw [List.length_append, List.length_singleton]; omega)

end Frame

/-- The same node, or frames that agree. -/
inductive Beginning.Agree : Beginning N → Beginning N → Prop
  | node (complete : N) : Agree (.node complete) (.node complete)
  | frame {frame other : Frame N} (agree : frame.Agree other) : Agree (.frame frame) (.frame other)
  | nothing : Agree .nothing .nothing

/-- The same root, or frames that agree one by one. -/
inductive Progress.Agree : Progress N → Progress N → Prop
  | reading {frames others : List (Frame N)} (agree : List.Forall₂ Frame.Agree frames others) :
      Agree (.reading frames) (.reading others)
  | complete (root : N) : Agree (.complete root) (.complete root)

theorem Frame.supply_parallel {frames others : List (Frame N)}
    (agree : List.Forall₂ Frame.Agree frames others) (node : N) :
    Parallel Progress.Agree (Frame.supply node frames) (Frame.supply node others) := by
  induction agree generalizing node with
  | nil => exact .ok (.complete node)
  | @cons frame other frames others here further ih =>
      rcases eq_or_lt_of_le (Nat.succ_le_of_lt frame.lacks_pos) with one | more
      · rw [Frame.supply_last one.symm, Frame.supply_last (here.lacks ▸ one.symm),
          here.closed [node] one]
        cases other.closed [node] with
        | error reason => exact .error reason
        | ok whole => exact ih whole
      · rw [Frame.supply_more more, Frame.supply_more (here.lacks ▸ more)]
        exact .ok (.reading (.cons (here.given more node) further))

namespace Assembler

theorem expansion_agree {expand other : List N → N} {count : Nat}
    (agree : AgreeOn count expand other) :
    Beginning.Agree (expansion expand count) (expansion other count) := by
  cases count with
  | zero =>
      rw [expansion, expansion, agree [] rfl]
      exact .node _
  | succ more =>
      refine .frame ⟨rfl, fun operands count => ?_⟩
      simp only [Frame.closed, List.append_nil, agree operands count]

/-- The assembler with other extensions. -/
def withExtensions (assembler : Assembler α N) (extensions : Extensions N) : Assembler α N :=
  { assembler with extensions }

/-- A call of an extension has as many arguments as the extension is defined for. -/
def Matches (assembler : Assembler α N) : Token → Prop
  | .function function => ∀ custom ∈ assembler.extensions.function? function.name,
      function.arity = custom.definition.arity
  | .number _ | .var _ | .operator _ | .openParen | .closeParen | .comma => True

variable [Numeral α] {assembler : Assembler α N} {others : Extensions N}

theorem parallel_refl (outcome : Except CompileError (Beginning N)) :
    Parallel Beginning.Agree outcome outcome := by
  match outcome with
  | .error reason => exact .error reason
  | .ok (.node complete) => exact .ok (.node complete)
  | .ok (.frame frame) => exact .ok (.frame (.refl frame))
  | .ok .nothing => exact .ok .nothing

omit [Numeral α] in
theorem functionBeginning_parallel (agree : assembler.extensions.Agree others)
    {function : FunctionSymbol} (matching : assembler.Matches (.function function)) :
    Parallel Beginning.Agree (assembler.functionBeginning function)
      ((assembler.withExtensions others).functionBeginning function) := by
  have found := agree.functions function.name
  simp only [functionBeginning, withExtensions]
  generalize custom : assembler.extensions.function? function.name = extension at found
  generalize others.function? function.name = other at found
  cases found with
  | none => exact parallel_refl _
  | some both =>
      have arity := matching _ custom
      rw [← arity] at both
      exact .ok (expansion_agree both.2)

omit [Numeral α] in
theorem operatorBeginning_parallel (agree : assembler.extensions.Agree others)
    (operator : Operator) :
    Parallel Beginning.Agree (assembler.operatorBeginning operator)
      ((assembler.withExtensions others).operatorBeginning operator) := by
  have found := agree.operators operator.symbol
  simp only [operatorBeginning, customOperator?, withExtensions]
  generalize assembler.extensions.operator? operator.symbol = extension at found
  generalize others.operator? operator.symbol = other at found
  cases found with
  | none => exact parallel_refl _
  | @some custom replacement both =>
      obtain ⟨definition, expand⟩ := both
      rw [Option.filter_some, Option.filter_some, ← definition]
      by_cases count : custom.definition.operands = operator.operands
      · rw [count] at expand
        simp only [count, beq_self_eq_true, ↓reduceIte]
        exact .ok (expansion_agree expand)
      · simp only [beq_iff_eq, count, ↓reduceIte]
        exact parallel_refl _

theorem beginning_parallel (agree : assembler.extensions.Agree others) {token : Token}
    (matching : assembler.Matches token) :
    Parallel Beginning.Agree (assembler.beginning token)
      ((assembler.withExtensions others).beginning token) := by
  cases token with
  | function function => exact functionBeginning_parallel agree matching
  | operator operator => exact operatorBeginning_parallel agree operator
  | number literal => exact parallel_refl _
  | var name => exact parallel_refl _
  | openParen => exact .ok .nothing
  | closeParen => exact .ok .nothing
  | comma => exact .error _

theorem step_parallel (agree : assembler.extensions.Agree others) {token : Token}
    (matching : assembler.Matches token) {progress other : Progress N}
    (same : progress.Agree other) :
    Parallel Progress.Agree (assembler.step progress token)
      ((assembler.withExtensions others).step other token) := by
  cases same with
  | complete root => exact .error _
  | @reading frames otherFrames each =>
      have begins := beginning_parallel agree matching
      have depth : (assembler.withExtensions others).isTooDeep otherFrames =
          assembler.isTooDeep frames := by
        rw [isTooDeep, isTooDeep, each.length_eq]
        rfl
      rw [step, step, depth]
      split
      · exact .error _
      · generalize assembler.beginning token = one at begins
        generalize (assembler.withExtensions others).beginning token = two at begins
        cases begins with
        | error reason => exact .error reason
        | ok both =>
            cases both with
            | node complete => exact Frame.supply_parallel each complete
            | frame opened => exact .ok (.reading (.cons opened each))
            | nothing => exact .ok (.reading each)

theorem foldlM_step_parallel (agree : assembler.extensions.Agree others) {tokens : List Token}
    (matching : ∀ token ∈ tokens, assembler.Matches token) {progress other : Progress N}
    (same : progress.Agree other) :
    Parallel Progress.Agree (tokens.foldlM assembler.step progress)
      (tokens.foldlM (assembler.withExtensions others).step other) := by
  induction tokens generalizing progress other with
  | nil => exact .ok same
  | cons token rest ih =>
      obtain ⟨here, further⟩ := List.forall_mem_cons.mp matching
      rw [List.foldlM_cons, List.foldlM_cons]
      exact (step_parallel agree here same).bind fun _ _ next => ih further next

theorem build_parallel (agree : assembler.extensions.Agree others) {rpn : List Token}
    (matching : ∀ token ∈ rpn, assembler.Matches token) :
    Parallel Eq (assembler.build rpn) ((assembler.withExtensions others).build rpn) := by
  have ran := foldlM_step_parallel agree
    (fun token member => matching token (List.mem_reverse.mp member)) (.reading .nil)
  refine ran.bind fun progress other same => ?_
  cases same with
  | complete root => exact .ok rfl
  | reading each =>
      rw [conclude, conclude, isTooDeep, isTooDeep, each.length_eq]
      exact .error _

/-- What a compiler orders calls extensions with as many arguments as they are defined for. -/
theorem matches_of_compiler {compiler : Compiler α} {text : String} {expression : Expression}
    {rpn : List Token} (made : compiler.expression text = .ok expression)
    (ordered : expression.rpn = .ok rpn) : ∀ token ∈ rpn, compiler.assembler.Matches token := by
  intro token member
  cases token with
  | function function =>
      obtain ⟨word, known⟩ := Compiler.function?_of_mem_rpn made ordered member
      intro custom replaced
      rw [Compiler.eq_definition_of_function? known replaced]
  | number _ | var _ | operator _ | openParen | closeParen | comma => exact trivial

/-- An expansion is only called with as many operands as its definition has: one that does something
else with other operands builds the same. For operators this is always so, and for functions if they
are called with as many arguments as their definition has, as in all that a compiler orders. -/
theorem build_withExtensions {others : Extensions N} {rpn : List Token} :
    (∀ assembler : Assembler α N, assembler.extensions.Agree others →
      (∀ token ∈ rpn, assembler.Matches token) →
        (assembler.withExtensions others).build rpn = assembler.build rpn) ∧
    ∀ (compiler : Compiler α) (text : String) (expression : Expression),
      compiler.expression text = .ok expression → expression.rpn = .ok rpn →
        ∀ token ∈ rpn, compiler.assembler.Matches token := by
  refine ⟨fun assembler agree matching => ?_, fun _ _ _ => matches_of_compiler⟩
  have parallel := build_parallel agree matching
  generalize assembler.build rpn = one at parallel
  generalize (assembler.withExtensions others).build rpn = other at parallel
  cases parallel with
  | ok same => rw [same]
  | error reason => rfl

/-- `x! - f(x, y)` with an extension for `f` and one for `!`. -/
theorem build_withExtensions_of_difference :
    let call : FunctionSymbol := ⟨"f", 2⟩
    let suffix : Operator := ⟨"!", 1, true, 10001⟩
    let expand (operands : List (Node Float)) := operands.foldr (.binary .sub) (.constant 0)
    let extensions :=
      (Extensions.declareFunction {} ⟨call, expand⟩).declareOperator ⟨suffix, expand⟩
    let others :=
      (Extensions.declareFunction {} ⟨call, restricted 2 expand (.constant 0)⟩).declareOperator
        ⟨suffix, restricted 1 expand (.constant 0)⟩
    let assembler := Node.assembler [⟨"x", 1⟩, ⟨"y", 2⟩] extensions none
    let rpn := [.var "x", .operator suffix, .var "x", .var "y", .function call,
      .operator ⟨"-", 2, true, 500⟩]
    assembler.extensions.Agree others ∧ (∀ token ∈ rpn, assembler.Matches token) ∧
      (assembler.withExtensions others).build rpn =
        .ok (.binary .sub (expand [.var "x"]) (expand [.var "x", .var "y"])) := by
  intro call suffix expand extensions others assembler rpn
  have agree : assembler.extensions.Agree others :=
    (Extensions.agree_empty.declareFunction (agreeOn_restricted 2 expand _)).declareOperator
      (agreeOn_restricted 1 expand _)
  have matching : ∀ token ∈ rpn, assembler.Matches token := by
    simp [rpn, call, Matches, assembler, Node.assembler, extensions, Extensions.declareFunction,
      Extensions.declareOperator, Extensions.function?]
  have built : assembler.build rpn =
      .ok (.binary .sub (expand [.var "x"]) (expand [.var "x", .var "y"])) := rfl
  exact ⟨agree, matching, (build_withExtensions.1 assembler agree matching).trans built⟩

/-- A call of `f` with three arguments, where `f` is defined for two: its expansion gets all
three. -/
theorem build_call_with_third_argument :
    let call : FunctionSymbol := ⟨"f", 2⟩
    let expand (operands : List (Node Float)) := operands.foldr (.binary .sub) (.constant 0)
    let others := Extensions.declareFunction {} ⟨call, restricted 2 expand (.constant 0)⟩
    let assembler := Node.assembler [] (Extensions.declareFunction {} ⟨call, expand⟩) none
    let rpn := [.number 3, .number 2, .number 1, .function ⟨"f", 3⟩]
    assembler.extensions.Agree others ∧
      (assembler.withExtensions others).build rpn ≠ assembler.build rpn := by
  intro call expand others assembler rpn
  refine ⟨Extensions.agree_empty.declareFunction (agreeOn_restricted 2 expand _), ?_⟩
  have built : assembler.build rpn = .ok (expand [.constant 3, .constant 2, .constant 1]) := rfl
  have otherwise : (assembler.withExtensions others).build rpn = .ok (.constant 0) := rfl
  rw [built, otherwise]
  exact nofun

end Assembler

end Formula
