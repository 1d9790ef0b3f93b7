import Formula.Proofs.Token.Meaning
import Formula.Proofs.Token.Passage

namespace Formula

open Character

/-! What the characters of a text are read as.

The tokens of a text take up its characters but the blanks, one token after the other. A number is
written as a literal, and each other token as its name or symbol; of the run of characters that could
belong to a word or a symbol, a token takes the longest beginning that is known in its place.
-/

/-- The characters of a text that the span covers. -/
def Span.characters (span : Span) (text : List Char) : List Char :=
  (text.drop span.start).take (span.stop - span.start)

/-- Of the beginnings of a run that are known, the part is the longest one. -/
structure LongestBeginning (known : String → Prop) (run part : List Char) : Prop where
  isPrefix : part <+: run
  isKnown : known (String.ofList part)
  longest : ∀ other, other <+: run → known (String.ofList other) → other.length ≤ part.length

theorem LongestBeginning.of_longestKnown {β : Type} {known? : String → Option β}
    {known : String → Prop} (isSome_iff : ∀ {text}, (known? text).isSome = true ↔ known text)
    {p : Char → Bool} {part after : List Char} {meaning : β}
    (found : longestKnown known? ((part ++ after).takeWhile p) = some (meaning, part.length)) :
    LongestBeginning known ((part ++ after).takeWhile p) part := by
  obtain ⟨isKnown, inside, _⟩ := Lexicon.take_of_longestKnown found
  obtain ⟨_, _, _, longest⟩ := longestKnownUpTo_eq_some found
  refine ⟨?_, isSome_iff.mp (by simp [isKnown]), fun other begins isOther => ?_⟩
  · rw [List.takeWhile_append_of_pos inside]
    exact List.prefix_append _ _
  · refine not_lt.mp fun longer => ?_
    have unknown := longest other.length longer begins.length_le
    rw [← List.prefix_iff_eq_take.mp begins] at unknown
    have isSome := isSome_iff.mpr isOther
    rw [unknown] at isSome
    contradiction

namespace Vocabulary

/-- The characters `written`, with which a text begins, write the token, where a prefix operator is
expected or another one. -/
inductive Writes (vocabulary : Vocabulary) (expected : Bool) (text written : List Char) :
    Token → Prop
  | number {decimal : Decimal} (literal : Decimal.ofText? written = some decimal) :
      Writes vocabulary expected text written (.number decimal.toFloat)
  | name {name : String} (spelled : written = name.toList) (declared : name ∈ vocabulary.names)
      (longest : LongestBeginning vocabulary.HasWord (text.takeWhile isWordPart) written) :
      Writes vocabulary expected text written (.var name)
  | function {definition : FunctionSymbol} (spelled : written = definition.name.toList)
      (known : vocabulary.function? definition.name = some definition)
      (longest : LongestBeginning vocabulary.HasWord (text.takeWhile isWordPart) written) :
      Writes vocabulary expected text written (.function definition)
  | operator {definition : Operator} (spelled : written = definition.symbol.toList)
      (known : vocabulary.CanMean definition.symbol definition)
      (fits : definition.isPrefix = expected)
      (longest : LongestBeginning (vocabulary.HasOperator expected)
        (text.takeWhile isOperatorChar) written) :
      Writes vocabulary expected text written (.operator definition)
  | openParen (spelled : written = ['(']) : Writes vocabulary expected text written .openParen
  | closeParen (spelled : written = [')']) : Writes vocabulary expected text written .closeParen
  | comma (spelled : written = [',']) : Writes vocabulary expected text written .comma

/-- The tokens take up the characters of a text, all but the blanks, and are written with them. -/
structure Covers (vocabulary : Vocabulary) (text : List Char) (tokens : List Located) : Prop where
  ordered : tokens.Pairwise fun left right => left.span.stop ≤ right.span.start
  within : ∀ item ∈ tokens, item.span.start < item.span.stop ∧ item.span.stop ≤ text.length
  visible : ∀ position character, text[position]? = some character →
    (isBlank character = false ↔
      ∃ item ∈ tokens, item.span.start ≤ position ∧ position < item.span.stop)
  writes : ∀ before item after, tokens = before ++ item :: after →
    vocabulary.Writes (operandExpected (before.getLast?.map Located.token))
      (text.drop item.span.start) (item.span.characters text) item.token

end Vocabulary

namespace Lexicon

variable {lexicon : Lexicon} {vocabulary : Vocabulary} {before last : Option Token}
variable {position start length : Nat} {first : Char} {text part after rest : List Char}
variable {token : Token} {tokens : List Located}

theorem text_of_punctuation
    (isMark : token = .openParen ∨ token = .closeParen ∨ token = .comma)
    (read : lexicon.lexeme before start first rest = .ok (token, length)) :
    token.text.toList = [first] := by
  unfold lexeme at read
  split at read
  · obtain ⟨_, _, rfl, _⟩ := number_cases read
    rcases isMark with mark | mark | mark <;> contradiction
  split at read
  case isTrue mark => cases read; rw [beq_iff_eq.mp mark]; rfl
  split at read
  case isTrue mark => cases read; rw [beq_iff_eq.mp mark]; rfl
  split at read
  case isTrue mark => cases read; rw [beq_iff_eq.mp mark]; rfl
  split at read
  · obtain ⟨meaning, _, rfl, _⟩ := word_cases read
    cases meaning <;> rcases isMark with mark | mark | mark <;> contradiction
  split at read
  · obtain ⟨_, _, rfl⟩ := symbol_cases read
    rcases isMark with mark | mark | mark <;> contradiction
  · contradiction

/-- A token is written with the characters that it is read from. -/
theorem writes_of_lexeme
    (read : vocabulary.lexicon.lexeme before start first (part ++ after) =
      .ok (token, part.length + 1)) :
    vocabulary.Writes (operandExpected before) (first :: part ++ after) (first :: part) token := by
  rcases lexeme_cases read with asNumber | ⟨isMark, one⟩ | asWord | asSymbol
  · obtain ⟨decimal, parsed, rfl, reach⟩ := number_cases asNumber
    rw [← List.cons_append, @Decimal.literalPart_eq_of_length (first :: part) after reach] at parsed
    exact .number parsed
  · have spelled := text_of_punctuation isMark read
    obtain rfl : part = [] := List.length_eq_zero_iff.mp (by omega)
    rcases isMark with rfl | rfl | rfl
    · exact .openParen spelled.symm
    · exact .closeParen spelled.symm
    · exact .comma spelled.symm
  · obtain ⟨meaning, known, rfl, _⟩ := word_cases asWord
    rw [← List.cons_append, ← List.length_cons] at known
    have longest := LongestBeginning.of_longestKnown Vocabulary.isSome_word?_iff known
    obtain ⟨isKnown, _, _⟩ := take_of_longestKnown known
    have same := Vocabulary.text_of_word? isKnown
    rw [← same] at isKnown
    have spelled : first :: part = meaning.token.text.toList := by rw [same, String.toList_ofList]
    cases meaning with
    | name name => exact .name spelled (Vocabulary.mem_names_of_word? isKnown) longest
    | function definition => exact .function spelled (Vocabulary.function?_of_word? isKnown) longest
  · obtain ⟨operator, known, rfl⟩ := symbol_cases asSymbol
    rw [← List.cons_append, ← List.length_cons] at known
    have longest := LongestBeginning.of_longestKnown Vocabulary.isSome_operator?_iff known
    obtain ⟨isKnown, _, _⟩ := take_of_longestKnown known
    have same := Vocabulary.symbol_of_operator? isKnown
    rw [← same] at isKnown
    have spelled : first :: part = operator.symbol.toList := by rw [same, String.toList_ofList]
    obtain ⟨meant, fits⟩ := Vocabulary.canMean_of_operator? isKnown
    exact .operator spelled meant fits longest

theorem isBlank_eq_false_of_mem_exponentPart {character : Char}
    (member : character ∈ Decimal.exponentPart text) : isBlank character = false := by
  cases text with
  | nil => contradiction
  | cons mark rest =>
      simp only [Decimal.exponentPart] at member
      split at member
      case isFalse => contradiction
      case isTrue exponent =>
        have isMark : mark = 'e' ∨ mark = 'E' := by simpa using (Bool.and_eq_true_iff.mp exponent).1
        have isSign : ∀ sign ∈ (Decimal.splitSign rest).1, sign = '+' ∨ sign = '-' := by
          unfold Decimal.splitSign
          split <;> simp
        rcases List.mem_cons.mp member with rfl | member
        · rcases isMark with rfl | rfl <;> decide
        rcases List.mem_append.mp member with sign | digit
        · rcases isSign character sign with rfl | rfl <;> decide
        · refine isBlank_eq_false_of_isLiteralBody (Decimal.isLiteralBody_of_isDigit ?_)
          exact List.all_eq_true.mp List.all_takeWhile _ digit

/-- No token goes on over a blank. -/
theorem isBlank_eq_false_of_lexeme (visible : isBlank first = false)
    (read : lexicon.lexeme before start first (part ++ after) = .ok (token, part.length + 1)) :
    ∀ character ∈ first :: part, isBlank character = false := by
  intro character member
  rcases lexeme_cases read with asNumber | ⟨_, one⟩ | asWord | asSymbol
  · obtain ⟨_, _, _, reach⟩ := number_cases asNumber
    rw [← @Decimal.literalPart_eq_of_length (first :: part) after reach] at member
    rcases List.mem_append.mp member with body | exponent
    · exact isBlank_eq_false_of_isLiteralBody (List.all_eq_true.mp List.all_takeWhile _ body)
    · exact isBlank_eq_false_of_mem_exponentPart exponent
  · obtain rfl : part = [] := List.length_eq_zero_iff.mp (by omega)
    rwa [List.mem_singleton.mp member]
  · obtain ⟨meaning, known, _, _⟩ := word_cases asWord
    rw [← List.cons_append, ← List.length_cons] at known
    have isPart := (take_of_longestKnown known).2.1 character member
    refine Bool.eq_false_iff.mpr fun blank => ?_
    rw [isWordPart_eq_false_of_isBlank blank] at isPart
    contradiction
  · obtain ⟨operator, known, _⟩ := symbol_cases asSymbol
    rw [← List.cons_append, ← List.length_cons] at known
    exact (of_isOperatorChar ((take_of_longestKnown known).2.1 character member)).1

namespace Passes

theorem within (passes : lexicon.Passes position before text tokens last rest) :
    ∀ item ∈ tokens, position ≤ item.span.start ∧ item.span.start < item.span.stop ∧
      item.span.stop ≤ position + text.length := by
  induction passes with
  | done => simp
  | blank _ _ ih =>
      intro item member
      have bounds := ih item member
      rw [List.length_cons]
      omega
  | token _ _ _ ih =>
      intro item member
      simp only [List.cons_append, List.length_cons, List.length_append]
      rcases List.mem_cons.mp member with rfl | further
      · simp only
        omega
      · have bounds := ih item further
        omega

theorem visible_iff (passes : lexicon.Passes position before text tokens last []) :
    ∀ index character, text[index]? = some character →
      (isBlank character = false ↔ ∃ item ∈ tokens,
        item.span.start ≤ position + index ∧ position + index < item.span.stop) := by
  generalize empty : ([] : List Char) = rest at passes
  induction passes with
  | done => simp [← empty]
  | @blank position before last first text rest tokens blank onward ih =>
      intro index character here
      cases index with
      | zero =>
          obtain rfl : first = character := by simpa using here
          rw [blank]
          refine iff_of_false (by simp) fun ⟨item, member, reached, _⟩ => ?_
          have bounds := onward.within item member
          omega
      | succ index =>
          rw [ih empty index character (by simpa using here)]
          simp only [Nat.add_assoc, Nat.add_comm 1 index]
  | @token position before last first part after rest token tokens visible read onward ih =>
      intro index character here
      by_cases inside : index < (first :: part).length
      · rw [List.getElem?_append_left inside] at here
        have shown := isBlank_eq_false_of_lexeme visible read character
          (List.mem_of_getElem? here)
        rw [List.length_cons] at inside
        exact iff_of_true shown ⟨_, List.mem_cons_self, by simp, by simp only; omega⟩
      · rw [not_lt] at inside
        rw [List.getElem?_append_right inside] at here
        have reached : position + (part.length + 1) + (index - (first :: part).length) =
            position + index := by
          rw [List.length_cons] at inside ⊢
          omega
        rw [ih empty _ character here, reached]
        constructor
        · rintro ⟨item, member, covers⟩
          exact ⟨item, List.mem_cons_of_mem _ member, covers⟩
        · rintro ⟨item, member, covers⟩
          rcases List.mem_cons.mp member with rfl | further
          · simp only [List.length_cons] at inside covers
            omega
          · exact ⟨item, further, covers⟩

theorem writes (passes : vocabulary.lexicon.Passes position before text tokens last rest)
    {whole : List Char} (here : whole.drop position = text) :
    ∀ earlier item later, tokens = earlier ++ item :: later →
      vocabulary.Writes (operandExpected ((earlier.getLast?.map Located.token).or before))
        (whole.drop item.span.start) (item.span.characters whole) item.token := by
  induction passes with
  | done => simp
  | @blank position before last first text rest tokens _ _ ih =>
      refine ih ?_
      rw [← List.drop_drop, here]
      rfl
  | @token position before last first part after rest token tokens _ read _ ih =>
      intro earlier item later split
      cases earlier with
      | nil =>
          obtain ⟨rfl, rfl⟩ : _ = item ∧ tokens = later := List.cons.inj split
          have covered : Span.characters ⟨position, position + (part.length + 1)⟩ whole =
              first :: part := by
            rw [Span.characters, here, Nat.add_sub_cancel_left, ← List.length_cons, List.take_left]
          rw [covered, here]
          exact writes_of_lexeme read
      | cons head earlier =>
          obtain ⟨rfl, onward⟩ : _ = head ∧ tokens = earlier ++ item :: later := List.cons.inj split
          have written := ih (by rw [← List.drop_drop, here, ← List.length_cons, List.drop_left])
            earlier item later onward
          rw [List.getLast?_cons]
          cases latest : earlier.getLast? with
          | none => rwa [latest] at written
          | some before => rwa [latest] at written

end Passes

end Lexicon

/-- The tokens of a text take up all of its characters but the blanks. Each is written as what it
is, and each name, function or operator is the longest one that can be read in its place. -/
theorem Vocabulary.covers_tokens {vocabulary : Vocabulary} {text : String} {tokens : List Located}
    (lexed : vocabulary.lexicon.tokens text = .ok tokens) :
    vocabulary.Covers text.toList tokens := by
  obtain ⟨last, passes⟩ := Lexicon.exists_passes_of_scan lexed
  refine ⟨?_, fun item member => ?_, fun position character here => ?_,
    fun before item after split => ?_⟩
  · exact (Lexicon.tokens_precede lexed).imp fun precedes => precedes.2.1
  · have bounds := passes.within item member
    rw [Nat.zero_add] at bounds
    exact bounds.2
  · have shown := passes.visible_iff position character here
    rwa [Nat.zero_add] at shown
  · have written := passes.writes (List.drop_zero) before item after split
    rwa [Option.or_none] at written

/-- `2e` is no number here, in `xy2` the longest name is `xy`, and of `!<>~` only single operators and
`<>` are known: a suffix, an operator between operands and a prefix. -/
theorem Vocabulary.covers_tokens_of_runs :
    let vocabulary : Vocabulary :=
      { names := ["x", "xy", "e"]
        functions := [⟨"f", 2⟩]
        operators := [⟨"!", 1, true, 10001⟩, ⟨"<>", 2, true, 500⟩, ⟨"~", 1, false, 5000⟩] }
    let tokens : List Located :=
      [⟨.number 2, 0, 1⟩, ⟨.var "e", 1, 2⟩, ⟨.var "xy", 3, 5⟩, ⟨.number 2, 5, 6⟩,
        ⟨.function ⟨"f", 2⟩, 7, 8⟩, ⟨.openParen, 9, 10⟩, ⟨.number 0.0015, 10, 16⟩, ⟨.comma, 16, 17⟩,
        ⟨.operator ⟨"-", 1, false, 5000⟩, 17, 18⟩, ⟨.var "x", 18, 19⟩, ⟨.closeParen, 19, 20⟩,
        ⟨.operator ⟨"!", 1, true, 10001⟩, 20, 21⟩, ⟨.operator ⟨"<>", 2, true, 500⟩, 21, 23⟩,
        ⟨.operator ⟨"~", 1, false, 5000⟩, 23, 24⟩, ⟨.var "x", 24, 25⟩]
    vocabulary.lexicon.tokens "2e xy2 f (1.5e-3,-x)!<>~x" = .ok tokens ∧
      vocabulary.Covers "2e xy2 f (1.5e-3,-x)!<>~x".toList tokens := by
  intro vocabulary tokens
  have lexed : vocabulary.lexicon.tokens "2e xy2 f (1.5e-3,-x)!<>~x" = .ok tokens := by
    decide +kernel
  exact ⟨lexed, Vocabulary.covers_tokens lexed⟩

end Formula
