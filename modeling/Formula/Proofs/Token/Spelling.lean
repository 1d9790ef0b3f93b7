import Formula.Proofs.Character.Classes
import Formula.Proofs.List.TakeWhile
import Formula.Proofs.Scalar.Reading
import Formula.Proofs.Token.Placement

namespace Formula

open Character

/-! Texts of operands, and the tokens that they are read as.

A token goes as far as its characters do, so what a part of a text is read as depends on what
follows. `Spells` asks for a continuation that does not prolong the last token and then says what
the part adds in front of it, which composes.
-/

/-- A name that is read as one word. -/
def isIdentifier (name : String) : Bool :=
  match name.toList with
  | [] => false
  | first :: rest => isWordStart first && rest.all isWordPart

theorem exists_of_isIdentifier {name : String} (identifier : isIdentifier name = true) :
    ∃ first rest, name.toList = first :: rest ∧ isWordStart first = true ∧
      ∀ character ∈ first :: rest, isWordPart character = true := by
  simp only [isIdentifier] at identifier
  split at identifier
  · contradiction
  case h_2 first rest letters =>
    simp only [Bool.and_eq_true, List.all_eq_true] at identifier
    exact ⟨first, rest, letters, identifier.1,
      List.forall_mem_cons.mpr ⟨isWordPart_of_isWordStart identifier.1, identifier.2⟩⟩

/-- The text does not go on with a number or a name. -/
def IsBoundary (text : List Char) : Prop := ∀ next ∈ text.head?, next ∈ [' ', '(', ')', '^']

theorem isBoundary_nil : IsBoundary [] := by
  intro next isNext
  contradiction

theorem isBoundary_cons {next : Char} (ends : next ∈ [' ', '(', ')', '^']) (rest : List Char) :
    IsBoundary (next :: rest) := by
  intro other isNext
  obtain rfl : next = other := by simpa using isNext
  exact ends

theorem IsBoundary.ends {text : List Char} (boundary : IsBoundary text) :
    ∀ next ∈ text.head?, Decimal.isLiteralBody next = false ∧ isWordPart next = false ∧
      next ≠ 'e' ∧ next ≠ 'E' := by
  intro next isNext
  have isMark := boundary next isNext
  simp only [List.mem_cons, List.not_mem_nil, or_false] at isMark
  rcases isMark with rfl | rfl | rfl | rfl <;> decide

theorem IsBoundary.literalPart_append {body after : List Char} (boundary : IsBoundary after)
    (digits : ∀ character ∈ body, Decimal.isLiteralBody character = true) :
    Decimal.literalPart (body ++ after) = body := by
  obtain ⟨taken, dropped⟩ := takeWhile_append_of_head digits fun next isNext =>
    (boundary.ends next isNext).1
  have noExponent : Decimal.exponentPart after = [] := by
    cases after with
    | nil => rfl
    | cons next rest =>
        obtain ⟨_, _, small, large⟩ := boundary.ends next rfl
        simp [Decimal.exponentPart, small, large]
  rw [Decimal.literalPart, taken, dropped, noExponent, List.append_nil]

theorem longestKnownUpTo_of_longest {β : Type} {known? : String → Option β} {run : List Char}
    {bound length : Nat} {meaning : β} (positive : 0 < length) (fits : length ≤ bound)
    (known : known? (String.ofList (run.take length)) = some meaning)
    (longest : ∀ longer, length < longer → longer ≤ bound →
      known? (String.ofList (run.take longer)) = none) :
    longestKnownUpTo known? run bound = some (meaning, length) := by
  induction bound with
  | zero => omega
  | succ bound ih =>
      by_cases last : length = bound + 1
      · simp [longestKnownUpTo, ← last, known]
      · simp only [longestKnownUpTo, longest (bound + 1) (by omega) (le_refl _)]
        exact ih (by omega) fun longer above below => longest longer above (by omega)

theorem longestKnown_of_known {β : Type} {known? : String → Option β} {run : List Char}
    {meaning : β} (nonempty : run ≠ []) (known : known? (String.ofList run) = some meaning) :
    longestKnown known? run = some (meaning, run.length) :=
  longestKnownUpTo_of_longest (List.length_pos_iff.mpr nonempty) (le_refl _)
    (by rwa [List.take_length]) fun longer above below => by omega

/-- What is the longest known beginning of a run is also that of a shorter one that contains it. -/
theorem longestKnown_of_isPrefix {β : Type} {known? : String → Option β} {run shorter : List Char}
    {length : Nat} {meaning : β} (found : longestKnown known? run = some (meaning, length))
    (isPrefix : shorter <+: run) (fits : length ≤ shorter.length) :
    longestKnown known? shorter = some (meaning, length) := by
  obtain ⟨positive, _, known, longest⟩ := longestKnownUpTo_eq_some found
  have same (count : Nat) (within : count ≤ shorter.length) :
      shorter.take count = run.take count := by
    rw [List.prefix_iff_eq_take.mp isPrefix, List.take_take, min_eq_left within]
  refine longestKnownUpTo_of_longest positive fits (by rwa [same length fits]) ?_
  intro longer above below
  rw [same longer below]
  exact longest longer above (below.trans isPrefix.length_le)

namespace Lexicon

/-- The text is read as the tokens, after whatever token leaves an operand expected or not. -/
def Yields (lexicon : Lexicon) (expected : Bool) (text : List Char) (tokens : List Token) : Prop :=
  ∀ position before, operandExpected before = expected →
    ∃ located, lexicon.scan 0 position before text = .ok located ∧
      located.map Located.token = tokens

variable {lexicon : Lexicon} {expected : Bool} {text after : List Char} {later : List Token}
variable {α : Type} [Numeral α]

theorem yields_nil : lexicon.Yields expected [] [] := fun _ _ _ => ⟨[], rfl, rfl⟩

theorem scan_covered (lexicon : Lexicon) (part after : List Char) (position : Nat)
    (before : Option Token) :
    lexicon.scan part.length position before (part ++ after) =
      lexicon.scan 0 (position + part.length) before after := by
  induction part generalizing position with
  | nil => rfl
  | cons first rest ih =>
      have onward := ih (position + 1)
      rw [Nat.add_right_comm, Nat.add_assoc] at onward
      exact onward

theorem Yields.blank (onward : lexicon.Yields expected after later) :
    lexicon.Yields expected (' ' :: after) later :=
  fun position before expects => onward (position + 1) before expects

theorem Yields.cons {first : Char} {part : List Char} {token : Token}
    (visible : isBlank first = false)
    (read : ∀ position before, operandExpected before = expected →
      lexicon.lexeme before position first (part ++ after) = .ok (token, part.length + 1))
    (onward : lexicon.Yields (!token.endsOperand) after later) :
    lexicon.Yields expected (first :: part ++ after) (token :: later) := by
  intro position before expects
  obtain ⟨located, scanned, rfl⟩ :=
    onward (position + 1 + part.length) (some token) (by simp [operandExpected_eq])
  refine ⟨⟨token, ⟨position, position + (part.length + 1)⟩⟩ :: located, ?_, rfl⟩
  simp only [List.cons_append, scan, visible, Bool.false_eq_true, ↓reduceIte,
    read position before expects, Nat.add_sub_cancel, scan_covered, scanned, Except.map]

theorem Yields.openParen (onward : lexicon.Yields true after later) :
    lexicon.Yields expected ('(' :: after) (.openParen :: later) :=
  @Yields.cons lexicon expected after later '(' [] .openParen rfl (fun _ _ _ => rfl) onward

theorem Yields.closeParen (onward : lexicon.Yields false after later) :
    lexicon.Yields expected (')' :: after) (.closeParen :: later) :=
  @Yields.cons lexicon expected after later ')' [] .closeParen rfl (fun _ _ _ => rfl) onward

/-- Digits and a point are read as the number that they write. -/
theorem Yields.literal {body : List Char} {decimal : Decimal}
    (parsed : Decimal.ofText? body = some decimal)
    (digits : ∀ character ∈ body, Decimal.isLiteralBody character = true)
    (boundary : IsBoundary after) (onward : lexicon.Yields false after later) :
    lexicon.Yields expected (body ++ after) (.number decimal.toFloat :: later) := by
  cases body with
  | nil => contradiction
  | cons first part =>
      have begins := digits first (by simp)
      refine Yields.cons (isBlank_eq_false_of_isLiteralBody begins) ?_ onward
      intro position before _
      rw [lexeme_of_isLiteralBody _ _ _ _ begins, ← List.cons_append, Lexicon.number,
        boundary.literalPart_append digits, parsed]
      rfl

theorem Yields.number {number : α} (finite : Numeral.isFinite number = true)
    (unsigned : Numeral.isBelowZero number = false) (boundary : IsBoundary after)
    (onward : lexicon.Yields false after later) :
    lexicon.Yields expected ((Numeral.constantText number).toList ++ after)
      (.number (Numeral.reading number) :: later) := by
  obtain ⟨decimal, parsed, same⟩ := Numeral.exists_decimal_of_isFinite finite unsigned
  rw [← same]
  exact Yields.literal parsed (Numeral.isPlain_constantText finite unsigned).isLiteralBody boundary
    onward

theorem Yields.word {name : String} {meaning : Word} (identifier : isIdentifier name = true)
    (known : lexicon.word? name = some meaning) (boundary : IsBoundary after)
    (begins : meaning.token.isFunction = true → after.head? = some '(')
    (onward : lexicon.Yields (!meaning.token.endsOperand) after later) :
    lexicon.Yields expected (name.toList ++ after) (meaning.token :: later) := by
  obtain ⟨first, part, letters, starts, parts⟩ := exists_of_isIdentifier identifier
  rw [letters]
  refine Yields.cons (isBlank_eq_false_of_isWordStart starts) ?_ onward
  intro position before _
  obtain ⟨taken, _⟩ := takeWhile_append_of_head parts fun next isNext =>
    (boundary.ends next isNext).2.1
  have whole : longestKnown lexicon.word? (first :: part) = some (meaning, part.length + 1) := by
    refine longestKnown_of_known (by simp) ?_
    rw [← letters, String.ofList_toList]
    exact known
  rw [lexeme_of_isWordStart _ _ _ _ starts, ← List.cons_append, Lexicon.word, taken, whole]
  cases meaning with
  | name text => rfl
  | function definition =>
      obtain ⟨rest, rfl⟩ := List.head?_eq_some_iff.mp (begins rfl)
      have calls : beginsCall (((first :: part) ++ '(' :: rest).drop (part.length + 1)) = true := by
        rw [List.drop_left' (by simp)]
        rfl
      simp only [calls, ↓reduceIte]
      rfl

theorem symbol_of_mem_builtins :
    ∀ operator ∈ Operator.builtins, operator.symbol.toList.length = 1 ∧
      operator.symbol.toList.all isOperatorChar = true := by
  decide

theorem builtin?_of_mem_builtins :
    ∀ operator ∈ Operator.builtins,
      Operator.builtin? operator.symbol (if operator.isPrefix then 1 else 2) = some operator := by
  decide

/-- A built-in operator that fits is read if no other operator character follows. -/
theorem Yields.operator (plain : lexicon.HasBuiltinOperators) {operator : Operator}
    (builtin : operator ∈ Operator.builtins) (fits : operator.isPrefix = expected)
    (alone : ∀ next ∈ after.head?, isOperatorChar next = false)
    (onward : lexicon.Yields true after later) :
    lexicon.Yields expected (operator.symbol.toList ++ after) (.operator operator :: later) := by
  obtain ⟨single, allOperator⟩ := symbol_of_mem_builtins operator builtin
  obtain ⟨mark, marks⟩ := List.length_eq_one_iff.mp single
  have isOperator : isOperatorChar mark = true := by simpa [marks] using allOperator
  have expects : (!(Token.operator operator).endsOperand) = true := by
    have noSuffix : ∀ operator ∈ Operator.builtins, operator.isSuffix = false := by decide
    simp [Token.endsOperand, noSuffix operator builtin]
  rw [marks]
  refine Yields.cons (of_isOperatorChar isOperator).1 ?_ (by rwa [expects])
  intro position before expected
  obtain ⟨taken, _⟩ := @takeWhile_append_of_head Char isOperatorChar [mark] after
    (by simpa using isOperator) alone
  have known : lexicon.operator? (operandExpected before) (String.ofList [mark]) = some operator := by
    rw [plain, expected, ← fits, ← marks, String.ofList_toList]
    exact builtin?_of_mem_builtins operator builtin
  have whole := longestKnown_of_known (List.cons_ne_nil mark []) known
  rw [lexeme_of_isOperatorChar _ _ _ _ isOperator, ← List.cons_append, Lexicon.symbol, taken, whole]
  rfl

/-- The text is read as the tokens of an operand wherever one is expected. -/
def Spells (lexicon : Lexicon) (text : String) (tokens : List Token) : Prop :=
  ∀ after later, IsBoundary after → lexicon.Yields false after later →
    lexicon.Yields true (text.toList ++ after) (tokens ++ later)

/-- An operator can stand directly before the text. -/
def BeginsApart (text : String) : Prop :=
  ∃ first rest, text.toList = first :: rest ∧ isOperatorChar first = false

theorem BeginsApart.append {text : String} (apart : BeginsApart text) (rest : String) :
    BeginsApart (text ++ rest) := by
  obtain ⟨first, others, begins, different⟩ := apart
  exact ⟨first, others ++ rest.toList, by simp [begins], different⟩

theorem beginsApart_group (text : String) : BeginsApart ("(" ++ text ++ ")") :=
  ⟨'(', text.toList ++ [')'], by simp, by decide⟩

theorem beginsApart_of_isIdentifier {name : String} (identifier : isIdentifier name = true) :
    BeginsApart name := by
  obtain ⟨first, rest, letters, starts, _⟩ := exists_of_isIdentifier identifier
  exact ⟨first, rest, letters, isOperatorChar_eq_false_of_isWordStart starts⟩

theorem beginsApart_constantText {number : α} (finite : Numeral.isFinite number = true)
    (unsigned : Numeral.isBelowZero number = false) : BeginsApart (Numeral.constantText number) := by
  have plain := Numeral.isPlain_constantText finite unsigned
  obtain ⟨_, parsed⟩ := plain.exists_decimal
  cases letters : (Numeral.constantText number).toList with
  | nil =>
      rw [letters] at parsed
      contradiction
  | cons first rest =>
      have digit := plain.isLiteralBody first (letters ▸ List.mem_cons_self)
      exact ⟨first, rest, letters, isOperatorChar_eq_false_of_isLiteralBody digit⟩

namespace Spells

variable {text other : String} {tokens others : List Token} {operator : Operator}

theorem number {number : α} (finite : Numeral.isFinite number = true)
    (unsigned : Numeral.isBelowZero number = false) :
    lexicon.Spells (Numeral.constantText number) [.number (Numeral.reading number)] :=
  fun _ _ boundary onward => Yields.number finite unsigned boundary onward

theorem name {name : String} (identifier : isIdentifier name = true)
    (known : lexicon.word? name = some (.name name)) : lexicon.Spells name [.var name] :=
  fun _ _ boundary onward => Yields.word identifier known boundary (fun isFunction => by
    contradiction) onward

theorem group (inner : lexicon.Spells text tokens) :
    lexicon.Spells ("(" ++ text ++ ")") (.openParen :: tokens ++ [.closeParen]) := by
  intro after later _ onward
  have closed := inner (')' :: after) (.closeParen :: later) (isBoundary_cons (by simp) after)
    (.closeParen onward)
  simpa using closed.openParen

theorem call {function : FunctionSymbol} {name : String} (identifier : isIdentifier name = true)
    (known : lexicon.word? name = some (.function function)) (inner : lexicon.Spells text tokens) :
    lexicon.Spells (name ++ "(" ++ text ++ ")")
      (.function function :: .openParen :: tokens ++ [.closeParen]) := by
  intro after later _ onward
  have closed := inner (')' :: after) (.closeParen :: later) (isBoundary_cons (by simp) after)
    (.closeParen onward)
  have whole := @Yields.word lexicon true _ _ name _ identifier known (isBoundary_cons (by simp) _)
    (fun _ => rfl) closed.openParen
  simpa [Word.token] using whole

theorem signed (plain : lexicon.HasBuiltinOperators) (builtin : operator ∈ Operator.builtins)
    (isPrefix : operator.isPrefix = true) (inner : lexicon.Spells text tokens)
    (apart : BeginsApart text) :
    lexicon.Spells (operator.symbol ++ text) (.operator operator :: tokens) := by
  intro after later boundary onward
  obtain ⟨first, rest, begins, different⟩ := apart
  have whole := Yields.operator plain builtin isPrefix (by simp [begins, different])
    (inner after later boundary onward)
  simpa using whole

theorem spaced (plain : lexicon.HasBuiltinOperators) (builtin : operator ∈ Operator.builtins)
    (infixed : operator.isPrefix = false) (left : lexicon.Spells text tokens)
    (right : lexicon.Spells other others) :
    lexicon.Spells (text ++ " " ++ operator.symbol ++ " " ++ other)
      (tokens ++ .operator operator :: others) := by
  intro after later boundary onward
  have second := Yields.operator plain builtin infixed (by simp [isOperatorChar])
    (right after later boundary onward).blank
  have whole := left _ _ (isBoundary_cons (by simp) _) second.blank
  simpa using whole

theorem joined (plain : lexicon.HasBuiltinOperators) (builtin : operator ∈ Operator.builtins)
    (caret : operator.symbol = "^") (infixed : operator.isPrefix = false)
    (left : lexicon.Spells text tokens) (right : lexicon.Spells other others)
    (apart : BeginsApart other) :
    lexicon.Spells (text ++ operator.symbol ++ other) (tokens ++ .operator operator :: others) := by
  intro after later boundary onward
  obtain ⟨first, rest, begins, different⟩ := apart
  have second := Yields.operator plain builtin infixed (by simp [begins, different])
    (right after later boundary onward)
  have mark : operator.symbol.toList = ['^'] := by rw [caret]; rfl
  rw [mark] at second
  have whole := left _ _ (isBoundary_cons (by simp) _) second
  simpa [mark] using whole

/-- Alone the text is read as its tokens. -/
theorem tokens_eq (spells : lexicon.Spells text tokens) :
    ∃ located, lexicon.tokens text = .ok located ∧ located.map Located.token = tokens := by
  have whole := spells [] [] isBoundary_nil yields_nil 0 none rfl
  simpa only [List.append_nil, Lexicon.tokens] using whole

end Spells

end Lexicon

end Formula
