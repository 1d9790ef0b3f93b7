import Formula.Proofs.Token.Placement

namespace Formula

/-! What the words and symbols of a vocabulary mean.

A vocabulary finds its declarations by their own names and symbols, and so do the tables of what is
built in. A word is known if it is a name that is declared, or the name of a function; a symbol is
known in a place if it can mean an operator that fits there.
-/

theorem FunctionSymbol.name_of_builtin? {name : String} {function : FunctionSymbol}
    (found : builtin? name = some function) : function.name = name := by
  simp only [builtin?] at found
  split at found
  · cases found
    rfl
  split at found
  · cases found
    rfl
  · contradiction

theorem Operator.symbol_of_builtin? {symbol : String} {operands : Nat} {operator : Operator}
    (found : Operator.builtin? symbol operands = some operator) : operator.symbol = symbol := by
  have matching := List.find?_some found
  rw [Bool.and_eq_true] at matching
  exact beq_iff_eq.mp matching.1

theorem Operator.isSome_builtin?_iff {symbol : String} {expected : Bool} :
    (Operator.builtin? symbol (if expected then 1 else 2)).isSome = true ↔
      ∃ operator ∈ Operator.builtins, operator.symbol = symbol ∧ operator.isPrefix = expected := by
  have operands : ∀ operator ∈ Operator.builtins,
      operator.operands = if operator.isPrefix then 1 else 2 := by decide
  constructor
  · intro found
    obtain ⟨operator, found⟩ := Option.isSome_iff_exists.mp found
    exact ⟨operator, (mem_builtins_of_builtin? found).1, symbol_of_builtin? found,
      isPrefix_of_builtin? found⟩
  · rintro ⟨operator, builtin, rfl, rfl⟩
    exact List.find?_isSome.mpr ⟨operator, builtin, by simp [operands operator builtin]⟩

namespace Vocabulary

variable {vocabulary : Vocabulary} {text symbol : String} {expected : Bool}

theorem mem_names_of_word? {name : String} (known : vocabulary.word? text = some (.name name)) :
    name ∈ vocabulary.names := by
  simp only [word?] at known
  split at known
  case isTrue declared =>
    cases known
    simpa using declared
  case isFalse =>
    obtain ⟨_, _, same⟩ := Option.map_eq_some_iff.mp known
    contradiction

theorem function?_of_word? {function : FunctionSymbol}
    (known : vocabulary.word? text = some (.function function)) :
    vocabulary.function? text = some function := by
  simp only [word?] at known
  split at known
  case isTrue => cases known
  case isFalse =>
    obtain ⟨_, isFunction, same⟩ := Option.map_eq_some_iff.mp known
    cases same
    exact isFunction

theorem name_of_function? {function : FunctionSymbol}
    (known : vocabulary.function? text = some function) : function.name = text := by
  rcases Option.or_eq_some_iff.mp known with declared | ⟨_, builtin⟩
  · simpa using List.find?_some declared
  · exact FunctionSymbol.name_of_builtin? builtin

theorem symbol_of_operator? {operator : Operator}
    (known : vocabulary.operator? expected symbol = some operator) : operator.symbol = symbol := by
  rcases Option.or_eq_some_iff.mp known with declared | ⟨_, builtin⟩
  · simpa using List.find?_some (Option.eq_some_of_filter_eq_some declared)
  · exact Operator.symbol_of_builtin? builtin

/-- A word means a token that is written like it. -/
theorem text_of_word? {meaning : Word} (known : vocabulary.word? text = some meaning) :
    meaning.token.text = text := by
  cases meaning with
  | name name =>
      simp only [word?] at known
      split at known
      · cases known
        rfl
      · obtain ⟨_, _, same⟩ := Option.map_eq_some_iff.mp known
        contradiction
  | function definition => exact name_of_function? (function?_of_word? known)

/-- Whether the word is the name of a declared or built-in function. -/
def HasFunction (vocabulary : Vocabulary) (word : String) : Prop :=
  word ∈ vocabulary.functions.map (·.name) ∨
    word ∈ FunctionSymbol.unaryNames ∨ word ∈ FunctionSymbol.binaryNames

theorem isSome_function?_iff :
    (vocabulary.function? text).isSome = true ↔ vocabulary.HasFunction text := by
  have builtin : (FunctionSymbol.builtin? text).isSome = true ↔
      text ∈ FunctionSymbol.unaryNames ∨ text ∈ FunctionSymbol.binaryNames := by
    by_cases unary : text ∈ FunctionSymbol.unaryNames
    · simp [FunctionSymbol.builtin?, unary]
    · by_cases binary : text ∈ FunctionSymbol.binaryNames <;>
        simp [FunctionSymbol.builtin?, unary, binary]
  rw [function?, Option.isSome_or, Bool.or_eq_true, builtin, declaredFunction?,
    List.find?_isSome, HasFunction]
  simp

/-- Whether the word is a declared name, or the name of a declared or built-in function. -/
def HasWord (vocabulary : Vocabulary) (word : String) : Prop :=
  word ∈ vocabulary.names ∨ word ∈ vocabulary.functions.map (·.name) ∨
    word ∈ FunctionSymbol.unaryNames ∨ word ∈ FunctionSymbol.binaryNames

theorem isSome_word?_iff : (vocabulary.word? text).isSome = true ↔ vocabulary.HasWord text := by
  have function := @isSome_function?_iff vocabulary text
  rw [HasFunction] at function
  rw [word?, HasWord, ← function]
  split <;> simp_all

/-- The symbol can mean the operator: the one that is declared, or one that is built in. -/
def CanMean (vocabulary : Vocabulary) (symbol : String) (operator : Operator) : Prop :=
  vocabulary.declaredOperator? symbol = some operator ∨
    operator ∈ Operator.builtins ∧ operator.symbol = symbol

/-- Whether the symbol can mean a prefix operator, or one that is not. -/
def HasOperator (vocabulary : Vocabulary) (isPrefix : Bool) (symbol : String) : Prop :=
  ∃ operator, vocabulary.CanMean symbol operator ∧ operator.isPrefix = isPrefix

theorem canMean_of_operator? {operator : Operator}
    (known : vocabulary.operator? expected symbol = some operator) :
    vocabulary.CanMean symbol operator ∧ operator.isPrefix = expected := by
  refine ⟨?_, vocabulary.lexicon_positional expected symbol operator known⟩
  rcases Option.or_eq_some_iff.mp known with declared | ⟨_, builtin⟩
  · exact .inl (Option.eq_some_of_filter_eq_some declared)
  · exact .inr ⟨(Operator.mem_builtins_of_builtin? builtin).1, Operator.symbol_of_builtin? builtin⟩

theorem isSome_operator?_iff :
    (vocabulary.operator? expected symbol).isSome = true ↔
      vocabulary.HasOperator expected symbol := by
  constructor
  · intro found
    obtain ⟨operator, known⟩ := Option.isSome_iff_exists.mp found
    exact ⟨operator, canMean_of_operator? known⟩
  · rintro ⟨operator, declared | builtin, fits⟩
    · simp [operator?, declared, fits, Option.isSome_or]
    · rw [operator?, Option.isSome_or, Bool.or_eq_true]
      exact .inr (Operator.isSome_builtin?_iff.mpr ⟨operator, builtin.1, builtin.2, fits⟩)

end Vocabulary

end Formula
