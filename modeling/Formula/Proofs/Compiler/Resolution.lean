import Mathlib
import Formula.Proofs.Compiler.Juxtaposition
import Formula.Proofs.Rpn.Attachment
import Formula.Proofs.Rpn.Juxtaposition

namespace Formula

/-! That an operator is built as what it was read as.

Reading looks for an extension of the symbol that fits the place, assembly for one that takes as
many operands. The two disagree in one case: a sign before an operand, where the extension of its
symbol is a suffix. It is read as the built-in sign and built with the expansion of the suffix.
-/

namespace Assembler

variable {α N : Type} [Numeral α] {assembler : Assembler α N} {rpn : List Token} {tree : N}

theorem exists_beginning_of_foldlM {progress last : Progress N}
    (ran : rpn.foldlM assembler.step progress = .ok last) :
    ∀ token ∈ rpn, ∃ beginning, assembler.beginning token = .ok beginning := by
  induction rpn generalizing progress with
  | nil => simp
  | cons token rest ih =>
      rw [List.foldlM_cons, bind_eq_ok_iff] at ran
      obtain ⟨next, stepped, onward⟩ := ran
      refine List.forall_mem_cons.mpr ⟨?_, ih onward⟩
      cases progress with
      | complete root => contradiction
      | reading frames =>
          simp only [step] at stepped
          split at stepped
          · contradiction
          · cases begins : assembler.beginning token with
            | error reason => simp [begins] at stepped
            | ok beginning => exact ⟨beginning, rfl⟩

/-- Every token of RPN that is built has begun a node. -/
theorem exists_beginning_of_build (built : assembler.build rpn = .ok tree) :
    ∀ token ∈ rpn, ∃ beginning, assembler.beginning token = .ok beginning := by
  obtain ⟨last, ran, _⟩ := bind_eq_ok_iff.mp built
  simpa using exists_beginning_of_foldlM ran

end Assembler

namespace Compiler

variable {α : Type} {compiler : Compiler α} {text : String}

/-- The extension that a symbol is read as, if there is one that fits the place. -/
def extension? (compiler : Compiler α) (operandExpected : Bool) (symbol : String) :
    Option (CustomOperator (Node α)) :=
  (compiler.extensions.operator? symbol).filter (·.definition.isPrefix == operandExpected)

theorem lexicon_operator?_eq (compiler : Compiler α) (expected : Bool) (symbol : String) :
    compiler.lexicon.operator? expected symbol =
      ((compiler.extension? expected symbol).map (·.definition)).or
        (Operator.builtin? symbol (if expected then 1 else 2)) := by
  have declared : compiler.vocabulary.declaredOperator? symbol =
      (compiler.extensions.operator? symbol).map (·.definition) := by
    simp only [Vocabulary.declaredOperator?, vocabulary, Extensions.operatorDefinitions,
      Extensions.operator?, List.find?_map, Function.comp_def]
  have same : compiler.lexicon.operator? expected symbol =
      ((compiler.vocabulary.declaredOperator? symbol).filter (·.isPrefix == expected)).or
        (Operator.builtin? symbol (if expected then 1 else 2)) := rfl
  rw [same, declared, Option.filter_map]
  rfl

theorem symbol_of_extension? {expected : Bool} {symbol : String} {custom : CustomOperator (Node α)}
    (found : compiler.extension? expected symbol = some custom) :
    custom.definition.symbol = symbol := by
  have known := Option.eq_some_of_filter_eq_some found
  simpa using List.find?_some known

/-- What an operator can have been read as. -/
theorem operator?_cases {expected : Bool} {symbol : String} {operator : Operator}
    (known : compiler.lexicon.operator? expected symbol = some operator) :
    operator.symbol = symbol ∧
      ((∃ custom, compiler.extension? expected symbol = some custom ∧
          custom.definition = operator) ∨
        compiler.extension? expected symbol = none ∧
          Operator.builtin? symbol (if expected then 1 else 2) = some operator) := by
  rw [lexicon_operator?_eq] at known
  rcases Option.or_eq_some_iff.mp known with declared | ⟨undeclared, builtin⟩
  · obtain ⟨custom, found, rfl⟩ := Option.map_eq_some_iff.mp declared
    exact ⟨symbol_of_extension? found, .inl ⟨custom, found, rfl⟩⟩
  · exact ⟨Operator.symbol_of_builtin? builtin, .inr ⟨Option.map_eq_none_iff.mp undeclared, builtin⟩⟩

/-- The extension of the symbol of a prefix operator is no suffix. -/
def KeepsPrefix (compiler : Compiler α) (operator : Operator) : Prop :=
  operator.isPrefix = true → ∀ custom, compiler.extensions.operator? operator.symbol = some custom →
    custom.definition.isSuffix = false

variable [Numeral α]

theorem customOperator?_of_extension? {expected : Bool} {operator : Operator}
    {custom : CustomOperator (Node α)}
    (found : compiler.extension? expected operator.symbol = some custom)
    (same : custom.definition = operator) :
    compiler.assembler.customOperator? operator = some custom := by
  refine Option.filter_eq_some_iff.mpr ⟨Option.eq_some_of_filter_eq_some found, ?_⟩
  rw [same]
  exact beq_self_eq_true _

/-- Assembly finds no extension for an operator that was read as a built-in one. -/
theorem customOperator?_eq_none {expected : Bool} {operator : Operator}
    (fits : compiler.KeepsPrefix operator)
    (absent : compiler.extension? expected operator.symbol = none)
    (builtin : Operator.builtin? operator.symbol (if expected then 1 else 2) = some operator) :
    compiler.assembler.customOperator? operator = none := by
  refine Option.filter_eq_none_iff.mpr fun custom found equal => ?_
  have unfit : custom.definition.isPrefix ≠ expected := by
    have excluded := Option.filter_eq_none_iff.mp absent custom found
    simpa using excluded
  have operands := (Operator.mem_builtins_of_builtin? builtin).2
  have isPrefix := Operator.isPrefix_of_builtin? builtin
  have takes : custom.definition.operands = operator.operands := beq_iff_eq.mp equal
  cases expected with
  | true =>
      -- The operand counts agree, so only the side on which the operand stands can differ.
      have noSuffix := fits isPrefix custom found
      have unary : custom.definition.isUnary = true := beq_iff_eq.mpr (takes.trans operands)
      rw [Operator.isSuffix, unary, Bool.true_and] at noSuffix
      simp [Operator.isPrefix, unary, noSuffix] at unfit
  | false =>
      have binary : custom.definition.isUnary = false := by simp [Operator.isUnary, takes, operands]
      simp [Operator.isPrefix, binary] at unfit

/-- A sign before an operand is not read as the suffix of its symbol, and yet is built with it. -/
theorem customOperator?_of_isSuffix {symbol : String} {operator : Operator}
    {custom : CustomOperator (Node α)}
    (known : compiler.lexicon.operator? true symbol = some operator)
    (found : compiler.extensions.operator? operator.symbol = some custom)
    (isSuffix : custom.definition.isSuffix = true) :
    compiler.extension? true operator.symbol = none ∧
      compiler.assembler.customOperator? operator = some custom := by
  obtain ⟨unary, groups⟩ := Bool.and_eq_true_iff.mp isSuffix
  have noPrefix : custom.definition.isPrefix = false := by simp [Operator.isPrefix, groups]
  have isPrefix : operator.isPrefix = true := Vocabulary.lexicon_positional _ _ _ _ known
  have takes : custom.definition.operands = operator.operands :=
    (beq_iff_eq.mp unary).trans (Grammar.operands_of_isPrefix isPrefix).symm
  constructor
  · simp [extension?, found, noPrefix]
  · exact Option.filter_eq_some_iff.mpr ⟨found, beq_iff_eq.mpr takes⟩

/-- An operator that was read as an extension begins with its expansion, one that was read as
built-in with the built-in operation. -/
def BuildsAs (compiler : Compiler α) (operator : Operator) :
    (read : Option (CustomOperator (Node α))) → Prop
  | some custom => custom.definition = operator ∧ compiler.assembler.beginning (.operator operator) =
      .ok (Assembler.expansion custom.expand operator.operands)
  | none => operator ∈ Operator.builtins ∧ ∃ frame,
      Assembler.builtinFrame? compiler.assembler.target operator = some frame ∧
        compiler.assembler.beginning (.operator operator) = .ok (.frame frame)

theorem buildsAs_of_operator? {expected : Bool} {symbol : String} {operator : Operator}
    (known : compiler.lexicon.operator? expected symbol = some operator)
    (fits : compiler.KeepsPrefix operator)
    (begins : ∃ beginning, compiler.assembler.beginning (.operator operator) = .ok beginning) :
    compiler.BuildsAs operator (compiler.extension? expected operator.symbol) := by
  obtain ⟨rfl, origin⟩ := operator?_cases known
  rcases origin with ⟨custom, found, same⟩ | ⟨absent, builtin⟩
  · rw [found]
    refine ⟨same, ?_⟩
    rw [Assembler.beginning, Assembler.operatorBeginning, customOperator?_of_extension? found same]
  · rw [absent]
    refine ⟨(Operator.mem_builtins_of_builtin? builtin).1, ?_⟩
    have unreplaced := customOperator?_eq_none fits absent builtin
    simp only [Assembler.beginning, Assembler.operatorBeginning, unreplaced] at begins ⊢
    cases opened : Assembler.builtinFrame? compiler.assembler.target operator with
    | none => simp [opened] at begins
    | some frame => exact ⟨frame, rfl, rfl⟩

/-- The operators of a formula that compiles are built as what they were read as, each in its place,
unless a prefix operator has an extension of its symbol that is a suffix. -/
theorem compile_resolves_operators {tree : Node α} (compiled : compiler.compile text = .ok tree) :
    ∃ tokens ordered, compiler.lexicon.tokens text = .ok tokens ∧
      Rpn.located compiler.lexicon compiler.juxtaposition text = .ok ordered ∧
      compiler.assembler.build (ordered.map Located.token) = .ok tree ∧
      ∀ earlier item later operator, tokens = earlier ++ item :: later →
        item.token = .operator operator → compiler.KeepsPrefix operator →
          item ∈ ordered ∧
            compiler.BuildsAs operator (compiler.extension?
              (operandExpected (earlier.getLast?.map Located.token)) operator.symbol) := by
  obtain ⟨expression, rpn, made, ordering, built⟩ := exists_rpn_of_compile compiled
  obtain rfl : expression = ⟨text, compiler.vocabulary, compiler.juxtaposition⟩ :=
    eq_of_expression made
  have accepted : Rpn.ofText compiler.lexicon compiler.juxtaposition text = .ok rpn :=
    Expression.ofText_of_rpn ordering
  obtain ⟨tokens, _, lexed, _⟩ := Rpn.exists_run_of_ofText accepted
  obtain ⟨ordered, arranged, rfl⟩ : ∃ ordered,
      Rpn.located compiler.lexicon compiler.juxtaposition text = .ok ordered ∧
        ordered.map Located.token = rpn := by
    cases arranged : Rpn.located compiler.lexicon compiler.juxtaposition text with
    | error reason => simp [Rpn.ofText, arranged, Except.map] at accepted
    | ok ordered => exact ⟨ordered, rfl, by simpa [Rpn.ofText, arranged, Except.map] using accepted⟩
  refine ⟨tokens, ordered, lexed, arranged, built, ?_⟩
  rintro earlier item later operator rfl carried fits
  have isOrdered : item ∈ ordered := by
    have result := ((Rpn.located_eq_ok_iff lexed).mp arranged).1
    have value : Rpn.makesValue item = true := by rw [Rpn.makesValue, Located.token_eq, carried]; rfl
    refine (Rpn.mem_order_iff result).mpr ⟨?_, value⟩
    have member : item ∈ earlier ++ item :: later := by simp
    cases compiler.juxtaposition with
    | false => exact member
    | true => exact (interspersed_insertProducts _).sublist.mem member
  have member : Token.operator operator ∈ (earlier ++ item :: later).map Located.token := by
    rw [← carried]
    exact List.mem_map_of_mem (by simp)
  obtain ⟨expected, symbol, known⟩ := Lexicon.operator?_of_mem_scan lexed member
  have placed := Lexicon.tokens_placed (Vocabulary.lexicon_positional _) lexed
  rw [List.map_append, List.map_cons] at placed
  have here : operator.isPrefix = operandExpected (earlier.getLast?.map Located.token) := by
    have stands := placed.fits_of_append.1 operator carried
    simpa using stands
  have same : operator.isPrefix = expected := Vocabulary.lexicon_positional _ _ _ _ known
  have begins := Assembler.exists_beginning_of_build built item.token (List.mem_map_of_mem isOrdered)
  rw [carried] at begins
  refine ⟨isOrdered, ?_⟩
  rw [← here, same]
  exact buildsAs_of_operator? known fits begins

/-- In `x - -y` an extension replaces the difference, but not the sign. -/
theorem compile_resolves_operators_of_difference :
    let difference : CustomOperator (Node Float) :=
      ⟨⟨"-", 2, true, 500⟩, (·.foldr (.binary .mul) (.constant 2))⟩
    let compiler : Compiler Float :=
      { bindings := [⟨"x", 2⟩, ⟨"y", 3⟩], extensions := { operators := [difference] } }
    compiler.compile "x - -y" = .ok (.binary .mul (.var "x")
        (.binary .mul (.negation (.var "y")) (.constant 2))) ∧
      compiler.BuildsAs difference.definition (some difference) ∧
      compiler.BuildsAs ⟨"-", 1, false, 5000⟩ none := by
  intro difference compiler
  have compiled : compiler.compile "x - -y" = .ok (.binary .mul (.var "x")
      (.binary .mul (.negation (.var "y")) (.constant 2))) := by
    decide +kernel
  have read : compiler.lexicon.tokens "x - -y" = .ok [⟨.var "x", ⟨0, 1⟩⟩,
      ⟨.operator ⟨"-", 2, true, 500⟩, ⟨2, 3⟩⟩, ⟨.operator ⟨"-", 1, false, 5000⟩, ⟨4, 5⟩⟩,
      ⟨.var "y", ⟨5, 6⟩⟩] := by
    decide +kernel
  have keeps (operator : Operator) (isSign : operator.symbol = "-") :
      compiler.KeepsPrefix operator := by
    intro _ custom found
    have only : compiler.extensions.operator? "-" = some difference := by
      simp [compiler, difference, Extensions.operator?]
    rw [isSign, only] at found
    cases found
    rfl
  obtain ⟨tokens, ordered, lexed, _, _, each⟩ := compile_resolves_operators compiled
  obtain rfl := Except.ok.inj (read.symm.trans lexed)
  have binary := (each [_] _ _ _ rfl rfl (keeps _ rfl)).2
  have sign := (each [_, _] _ _ _ rfl rfl (keeps _ rfl)).2
  exact ⟨compiled, binary, sign⟩

/-- With `-` as a suffix that squares, `-x` is read with the built-in sign but compiles to `x * x`. -/
theorem compile_sign_with_suffix :
    let compiler : Compiler Float :=
      { bindings := [⟨"x", 3⟩]
        extensions := { operators := [⟨⟨"-", 1, true, 10001⟩, fun operands =>
          .binary .mul (operands.headD (.constant 0)) (operands.headD (.constant 0))⟩] } }
    compiler.lexicon.tokens "-x" =
        .ok [⟨.operator ⟨"-", 1, false, 5000⟩, ⟨0, 1⟩⟩, ⟨.var "x", ⟨1, 2⟩⟩] ∧
      (compiler.extension? true "-").isNone = true ∧
      compiler.compile "-x" = .ok (.binary .mul (.var "x") (.var "x")) := by
  decide +kernel

end Compiler

end Formula
