import Formula.Token.Lexeme

namespace Formula

/-! Where tokens stand after reading a text.

A lexicon knows, for each operator, whether it fits where an operand is expected. So every operator
that is read stands where it fits, and every function stands directly before a parenthesis.
-/

/-- Whether a token fits between the token before it and those after it: prefix operators where an
operand is expected and no others there, functions directly before a parenthesis. -/
def Token.Fits (before : Option Token) (token : Token) (after : List Token) : Prop :=
  (∀ operator, token = .operator operator → operator.isPrefix = operandExpected before) ∧
    (token.isFunction = true → after.head? = some .openParen)

/-- Every token fits where it stands, the first one after `before`. -/
inductive Placed : Option Token → List Token → Prop
  | nil {before : Option Token} : Placed before []
  | cons {before : Option Token} {token : Token} {rest : List Token}
      (fits : token.Fits before rest) (placed : Placed (some token) rest) :
      Placed before (token :: rest)

theorem Word.token_injective {first second : Word} (same : first.token = second.token) :
    first = second := by
  cases first <;> cases second <;> cases same <;> rfl

namespace Lexicon

variable {lexicon : Lexicon} {before : Option Token} {covered position start length : Nat}
variable {first : Char} {text rest : List Char} {token : Token} {tokens : List Located}

/-- The operators of the lexicon fit where it gives them. -/
def Positional (lexicon : Lexicon) : Prop :=
  ∀ expected symbol operator,
    lexicon.operator? expected symbol = some operator → operator.isPrefix = expected

/-- The lexicon has no operators but the built-in ones. -/
def HasBuiltinOperators (lexicon : Lexicon) : Prop :=
  ∀ expected symbol,
    lexicon.operator? expected symbol = Operator.builtin? symbol (if expected then 1 else 2)

theorem number_cases {text : List Char} (read : number text start = .ok (token, length)) :
    ∃ decimal, Decimal.ofText? (Decimal.literalPart text) = some decimal ∧
      token = .number decimal.toFloat ∧ length = (Decimal.literalPart text).length := by
  simp only [number] at read
  split at read
  case h_1 decimal parsed =>
    obtain ⟨rfl, rfl⟩ : Token.number decimal.toFloat = token ∧ _ = length := by simpa using read
    exact ⟨decimal, parsed, rfl, rfl⟩
  case h_2 => simp at read

theorem word_cases (read : lexicon.word text start = .ok (token, length)) :
    ∃ meaning, longestKnown lexicon.word? (text.takeWhile isWordPart) = some (meaning, length) ∧
      token = meaning.token ∧
      (token.isFunction = true → beginsCall (text.drop length) = true) := by
  simp only [word] at read
  split at read
  case h_1 => simp at read
  case h_2 name reach known =>
    obtain ⟨rfl, rfl⟩ : Token.var name = token ∧ reach = length := by simpa using read
    exact ⟨_, known, rfl, by simp [Token.isFunction]⟩
  case h_3 definition reach known =>
    split at read
    case isTrue begins =>
      obtain ⟨rfl, rfl⟩ : Token.function definition = token ∧ reach = length := by simpa using read
      exact ⟨_, known, rfl, fun _ => begins⟩
    case isFalse => simp at read

theorem symbol_cases (read : lexicon.symbol before text start = .ok (token, length)) :
    ∃ operator, longestKnown (lexicon.operator? (operandExpected before))
        (text.takeWhile isOperatorChar) = some (operator, length) ∧
      token = .operator operator := by
  simp only [symbol] at read
  split at read
  case h_1 => simp at read
  case h_2 operator reach known =>
    obtain ⟨rfl, rfl⟩ : Token.operator operator = token ∧ reach = length := by simpa using read
    exact ⟨operator, known, rfl⟩

/-- What a token that is read can be: punctuation, or what one of the readers makes. -/
theorem lexeme_cases (read : lexicon.lexeme before start first rest = .ok (token, length)) :
    number (first :: rest) start = .ok (token, length) ∨
      (token = .openParen ∨ token = .closeParen ∨ token = .comma) ∧ length = 1 ∨
      lexicon.word (first :: rest) start = .ok (token, length) ∨
      lexicon.symbol before (first :: rest) start = .ok (token, length) := by
  have punctuation (mark : Token) (isMark : Except.ok (mark, 1) =
      (Except.ok (token, length) : Except SyntaxError (Token × Nat))) :
      token = mark ∧ length = 1 := by
    obtain ⟨rfl, rfl⟩ : mark = token ∧ 1 = length := by simpa using isMark
    exact ⟨rfl, rfl⟩
  unfold lexeme at read
  split at read
  · exact .inl read
  split at read
  · obtain ⟨isMark, one⟩ := punctuation _ read
    exact .inr (.inl ⟨.inl isMark, one⟩)
  split at read
  · obtain ⟨isMark, one⟩ := punctuation _ read
    exact .inr (.inl ⟨.inr (.inl isMark), one⟩)
  split at read
  · obtain ⟨isMark, one⟩ := punctuation _ read
    exact .inr (.inl ⟨.inr (.inr isMark), one⟩)
  split at read
  · exact .inr (.inr (.inl read))
  split at read
  · exact .inr (.inr (.inr read))
  · contradiction

theorem lexeme_openParen (lexicon : Lexicon) (before : Option Token) (start : Nat)
    (rest : List Char) : lexicon.lexeme before start '(' rest = .ok (.openParen, 1) := rfl

/-- A character is passed over, as blank or as part of the token before, or a token begins. -/
theorem scan_cons_cases
    (scanned : lexicon.scan covered position before (first :: rest) = .ok tokens) :
    (∃ remaining, (covered = remaining + 1 ∨
        covered = 0 ∧ Character.isBlank first = true ∧ remaining = 0) ∧
      lexicon.scan remaining (position + 1) before rest = .ok tokens) ∨
    covered = 0 ∧ Character.isBlank first = false ∧ ∃ token length later,
      lexicon.lexeme before position first rest = .ok (token, length) ∧
      lexicon.scan (length - 1) (position + 1) (some token) rest = .ok later ∧
      tokens = ⟨token, ⟨position, position + length⟩⟩ :: later := by
  cases covered with
  | succ remaining => exact .inl ⟨remaining, .inl rfl, scanned⟩
  | zero =>
      cases blank : Character.isBlank first with
      | true =>
          simp only [scan, blank, ↓reduceIte] at scanned
          exact .inl ⟨0, .inr ⟨rfl, rfl, rfl⟩, scanned⟩
      | false =>
          simp only [scan, blank, Bool.false_eq_true, ↓reduceIte] at scanned
          cases read : lexicon.lexeme before position first rest with
          | error reason => simp [read] at scanned
          | ok result =>
              obtain ⟨token, length⟩ := result
              simp only [read] at scanned
              cases onward : lexicon.scan (length - 1) (position + 1) (some token) rest with
              | error reason => simp [onward, Except.map] at scanned
              | ok later =>
                  simp only [onward, Except.map, Except.ok.injEq] at scanned
                  exact .inr ⟨rfl, rfl, token, length, later, rfl, onward, scanned.symm⟩

theorem beginsCall_cons_of_isBlank (blank : Character.isBlank first = true) (rest : List Char) :
    beginsCall (first :: rest) = beginsCall rest := by
  simp [beginsCall, blank]

/-- Where an argument list begins, the next token is its parenthesis. -/
theorem scan_head_of_beginsCall (begins : beginsCall (text.drop covered) = true)
    (scanned : lexicon.scan covered position before text = .ok tokens) :
    (tokens.map Located.token).head? = some .openParen := by
  induction text generalizing covered position before with
  | nil => simp [beginsCall] at begins
  | cons first rest ih =>
      rcases scan_cons_cases scanned with
        ⟨remaining, rfl | ⟨rfl, blank, rfl⟩, onward⟩ | ⟨rfl, visible, token, length, later, read, _, rfl⟩
      · exact ih begins onward
      · rw [List.drop_zero, beginsCall_cons_of_isBlank blank] at begins
        refine ih ?_ onward
        exact begins
      · obtain rfl : first = '(' := by simpa [beginsCall, visible] using begins
        rw [lexeme_openParen] at read
        cases read
        rfl

/-- An operator is read as the lexicon knows it in that place. -/
theorem operator?_of_lexeme {operator : Operator}
    (read : lexicon.lexeme before start first rest = .ok (.operator operator, length)) :
    ∃ symbol, lexicon.operator? (operandExpected before) symbol = some operator := by
  rcases lexeme_cases read with asNumber | ⟨mark | mark | mark, _⟩ | asWord | asSymbol
  · obtain ⟨decimal, _, same, _⟩ := number_cases asNumber
    contradiction
  · contradiction
  · contradiction
  · contradiction
  · obtain ⟨meaning, _, same, _⟩ := word_cases asWord
    cases meaning <;> contradiction
  · obtain ⟨found, known, same⟩ := symbol_cases asSymbol
    cases same
    exact ⟨_, (longestKnownUpTo_eq_some known).2.2.1⟩

/-- A name or function is read as the lexicon knows it. -/
theorem word?_of_lexeme {meaning : Word}
    (read : lexicon.lexeme before start first rest = .ok (meaning.token, length)) :
    ∃ text, lexicon.word? text = some meaning := by
  rcases lexeme_cases read with asNumber | ⟨mark | mark | mark, _⟩ | asWord | asSymbol
  · obtain ⟨decimal, _, same, _⟩ := number_cases asNumber
    cases meaning <;> contradiction
  · cases meaning <;> contradiction
  · cases meaning <;> contradiction
  · cases meaning <;> contradiction
  · obtain ⟨found, known, same, _⟩ := word_cases asWord
    cases Word.token_injective same
    exact ⟨_, (longestKnownUpTo_eq_some known).2.2.1⟩
  · obtain ⟨found, _, same⟩ := symbol_cases asSymbol
    cases meaning <;> contradiction

/-- A function is read where its argument list begins. -/
theorem beginsCall_of_lexeme (isFunction : token.isFunction = true)
    (read : lexicon.lexeme before start first rest = .ok (token, length)) :
    beginsCall (rest.drop (length - 1)) = true := by
  rcases lexeme_cases read with asNumber | ⟨rfl | rfl | rfl, _⟩ | asWord | asSymbol
  · obtain ⟨decimal, _, rfl, _⟩ := number_cases asNumber
    contradiction
  · contradiction
  · contradiction
  · contradiction
  · obtain ⟨meaning, known, _, begins⟩ := word_cases asWord
    have positive := (longestKnownUpTo_eq_some known).1
    obtain ⟨below, rfl⟩ := Nat.exists_eq_add_one_of_ne_zero (Nat.ne_of_gt positive)
    exact begins isFunction
  · obtain ⟨found, _, rfl⟩ := symbol_cases asSymbol
    contradiction

theorem fits_of_lexeme (positional : lexicon.Positional)
    (read : lexicon.lexeme before start first rest = .ok (token, length))
    (scanned : lexicon.scan (length - 1) position (some token) rest = .ok tokens) :
    token.Fits before (tokens.map Located.token) := by
  constructor
  · rintro operator rfl
    obtain ⟨symbol, known⟩ := operator?_of_lexeme read
    exact positional _ symbol operator known
  · intro isFunction
    exact scan_head_of_beginsCall (beginsCall_of_lexeme isFunction read) scanned

theorem scan_placed (positional : lexicon.Positional)
    (scanned : lexicon.scan covered position before text = .ok tokens) :
    Placed before (tokens.map Located.token) := by
  induction text generalizing covered position before tokens with
  | nil =>
      obtain rfl : [] = tokens := by simpa [scan] using scanned
      exact .nil
  | cons first rest ih =>
      rcases scan_cons_cases scanned with
        ⟨remaining, _, onward⟩ | ⟨_, _, token, length, later, read, onward, rfl⟩
      · exact ih onward
      · exact .cons (fits_of_lexeme positional read onward) (ih onward)

/-- Every token that is read from a text fits where it stands. -/
theorem tokens_placed (positional : lexicon.Positional) {text : String}
    (lexed : lexicon.tokens text = .ok tokens) : Placed none (tokens.map Located.token) :=
  scan_placed positional lexed

/-- Every token of a text has been read somewhere in it. -/
theorem lexeme_of_mem_scan (scanned : lexicon.scan covered position before text = .ok tokens)
    (member : token ∈ tokens.map Located.token) :
    ∃ before start first rest length,
      lexicon.lexeme before start first rest = .ok (token, length) := by
  induction text generalizing covered position before tokens with
  | nil =>
      obtain rfl : [] = tokens := by simpa [scan] using scanned
      simp at member
  | cons first rest ih =>
      rcases scan_cons_cases scanned with
        ⟨remaining, _, onward⟩ | ⟨_, _, token, length, later, read, onward, rfl⟩
      · exact ih onward member
      · rcases List.mem_cons.mp member with rfl | further
        · exact ⟨_, _, _, _, _, read⟩
        · exact ih onward further

/-- The operators of a text are operators of the lexicon. -/
theorem operator?_of_mem_scan (scanned : lexicon.scan covered position before text = .ok tokens)
    {operator : Operator} (member : Token.operator operator ∈ tokens.map Located.token) :
    ∃ expected symbol, lexicon.operator? expected symbol = some operator := by
  obtain ⟨_, _, _, _, _, read⟩ := lexeme_of_mem_scan scanned member
  exact ⟨_, operator?_of_lexeme read⟩

/-- The names and functions of a text are words of the lexicon. -/
theorem word?_of_mem_scan (scanned : lexicon.scan covered position before text = .ok tokens)
    {meaning : Word} (member : meaning.token ∈ tokens.map Located.token) :
    ∃ text, lexicon.word? text = some meaning := by
  obtain ⟨_, _, _, _, _, read⟩ := lexeme_of_mem_scan scanned member
  exact word?_of_lexeme read

end Lexicon

theorem Operator.mem_builtins_of_builtin? {symbol : String} {operands : Nat} {operator : Operator}
    (found : Operator.builtin? symbol operands = some operator) :
    operator ∈ builtins ∧ operator.operands = operands := by
  have matching := List.find?_some found
  rw [Bool.and_eq_true] at matching
  exact ⟨List.mem_of_find?_eq_some found, beq_iff_eq.mp matching.2⟩

theorem Operator.isPrefix_of_mem_builtins :
    ∀ operator ∈ builtins, operator.isPrefix = decide (operator.operands = 1) := by
  decide

theorem Operator.isPrefix_of_builtin? {symbol : String} {expected : Bool} {operator : Operator}
    (found : Operator.builtin? symbol (if expected then 1 else 2) = some operator) :
    operator.isPrefix = expected := by
  obtain ⟨builtin, operands⟩ := mem_builtins_of_builtin? found
  rw [isPrefix_of_mem_builtins operator builtin, operands]
  cases expected <;> rfl

namespace Lexicon.HasBuiltinOperators

variable {lexicon : Lexicon}

theorem positional (plain : lexicon.HasBuiltinOperators) : lexicon.Positional := by
  intro expected symbol operator known
  rw [plain] at known
  exact Operator.isPrefix_of_builtin? known

theorem mem_builtins (plain : lexicon.HasBuiltinOperators) {text : String} {tokens : List Located}
    (lexed : lexicon.tokens text = .ok tokens) {operator : Operator}
    (member : Token.operator operator ∈ tokens.map Located.token) :
    operator ∈ Operator.builtins := by
  obtain ⟨expected, symbol, known⟩ := operator?_of_mem_scan lexed member
  rw [plain] at known
  exact (Operator.mem_builtins_of_builtin? known).1

end Lexicon.HasBuiltinOperators

/-- The lexicon of names, functions and operators that are looked up in tables. The key of an entry
need not be its own name or symbol. -/
def Lexicon.ofTables (isName : String → Bool) (function? : String → Option FunctionSymbol)
    (operator? : String → Option Operator) : Lexicon where
  word? text :=
    if isName text then some (.name text)
    else ((function? text).or (FunctionSymbol.builtin? text)).map .function
  operator? expected symbol :=
    ((operator? symbol).filter (·.isPrefix == expected)).or
      (Operator.builtin? symbol (if expected then 1 else 2))

theorem Lexicon.ofTables_positional (isName : String → Bool)
    (function? : String → Option FunctionSymbol) (operator? : String → Option Operator) :
    (ofTables isName function? operator?).Positional := by
  intro expected symbol operator known
  rcases Option.or_eq_some_iff.mp known with declared | ⟨_, builtin⟩
  · exact beq_iff_eq.mp (Option.filter_eq_some_iff.mp declared).2
  · exact Operator.isPrefix_of_builtin? builtin

/-- A vocabulary has tables in which every entry stands under its own name or symbol. -/
theorem Vocabulary.lexicon_eq_ofTables (vocabulary : Vocabulary) :
    vocabulary.lexicon = .ofTables vocabulary.names.contains vocabulary.declaredFunction?
      vocabulary.declaredOperator? := rfl

theorem Vocabulary.lexicon_positional (vocabulary : Vocabulary) :
    vocabulary.lexicon.Positional := by
  rw [lexicon_eq_ofTables]
  exact Lexicon.ofTables_positional _ _ _

theorem Vocabulary.lexicon_hasBuiltinOperators {vocabulary : Vocabulary}
    (undeclared : vocabulary.operators = []) : vocabulary.lexicon.HasBuiltinOperators := by
  intro expected symbol
  simp [lexicon, operator?, declaredOperator?, undeclared]

end Formula
