import Formula.Proofs.Scalar.Literal
import Formula.Proofs.Token.Coverage

namespace Formula

open Character

/-! Tokens that are written with blanks between them, and read again.

Whatever text the tokens were read from, with blanks and numbers of its own, they are read again.
Where a word or a symbol was the beginning of a longer run, the rest of the run now stands behind a
blank, and the word or symbol is still the longest that is known. A number is not written as it was,
but with digits and a point, so that nothing behind it can become its exponent.
-/

/-- The texts of the tokens with blanks between them. -/
def spacedText (tokens : List Token) : String := " ".intercalate (tokens.map Token.text)

/-- The texts of the tokens, with a blank before each. -/
def spacedAfter (tokens : List Token) : List Char :=
  tokens.flatMap fun token => ' ' :: token.text.toList

theorem toList_spacedText_cons (first : Token) (rest : List Token) :
    (spacedText (first :: rest)).toList = first.text.toList ++ spacedAfter rest := by
  induction rest generalizing first with
  | nil => simp [spacedText, spacedAfter]
  | cons next others ih =>
      have later := ih next
      simp only [spacedText, List.map_cons] at later
      simp only [spacedText, List.map_cons, String.intercalate_cons_cons, String.toList_append,
        later]
      simp [spacedAfter]

theorem spacedAfter_cons (first : Token) (rest : List Token) :
    spacedAfter (first :: rest) = ' ' :: (spacedText (first :: rest)).toList := by
  rw [toList_spacedText_cons]
  rfl

theorem isBoundary_spacedAfter (tokens : List Token) : IsBoundary (spacedAfter tokens) := by
  cases tokens with
  | nil => exact isBoundary_nil
  | cons first rest => exact isBoundary_cons (by simp) _

theorem takeWhile_spacedAfter {p : Char → Bool} (stops : p ' ' = false) (tokens : List Token) :
    (spacedAfter tokens).takeWhile p = [] := by
  cases tokens with
  | nil => rfl
  | cons first rest => simp [spacedAfter, stops]

/-- A token that is no number ends before a blank, however it ended before. -/
theorem Token.endsAlike_spacedAfter {token : Token} {rest : List Token}
    (noNumber : token.isNumber = false)
    (call : token.isFunction = true → rest.head? = some .openParen) (after : List Char) :
    token.EndsAlike after (spacedAfter rest) where
  number isNumber := by
    rw [noNumber] at isNumber
    contradiction
  word _ := by
    rw [takeWhile_spacedAfter (by decide)]
    exact List.nil_prefix
  call isFunction := by
    obtain ⟨others, rfl⟩ := List.head?_eq_some_iff.mp (call isFunction)
    rfl
  symbol _ _ := by
    rw [takeWhile_spacedAfter (by decide)]
    exact List.nil_prefix

theorem Vocabulary.Writes.text_eq {vocabulary : Vocabulary} {expected : Bool}
    {text written : List Char} {token : Token}
    (writes : vocabulary.Writes expected text written token)
    (noNumber : token.isNumber = false) : token.text.toList = written := by
  cases writes with
  | number => contradiction
  | name spelled => exact spelled.symm
  | function spelled => exact spelled.symm
  | operator spelled => exact spelled.symm
  | openParen spelled => exact spelled.symm
  | closeParen spelled => exact spelled.symm
  | comma spelled => exact spelled.symm

namespace Lexicon

variable {lexicon : Lexicon} {vocabulary : Vocabulary} {before last : Option Token}
variable {expected : Bool} {position : Nat} {first : Char} {text part after : List Char}
variable {token : Token} {rest later : List Token} {tokens : List Located}

theorem Yields.spacedAfter (onward : lexicon.Yields expected (spacedText rest).toList later) :
    lexicon.Yields expected (Formula.spacedAfter rest) later := by
  cases rest with
  | nil => exact onward
  | cons first others =>
      rw [spacedAfter_cons]
      exact onward.blank

/-- A token that was read somewhere is read again from its own text. -/
theorem yields_text_of_lexeme (visible : isBlank first = false)
    (read : vocabulary.lexicon.lexeme before position first (part ++ after) =
      .ok (token, part.length + 1))
    (finite : ∀ value, token = .number value → value.isFinite = true)
    (readable : ∀ value, token = .number value → value.isFinite = true → value.abs = value →
      Numeral.PlainReadsBack value)
    (call : token.isFunction = true → rest.head? = some .openParen)
    (onward : vocabulary.lexicon.Yields (!token.endsOperand) (Formula.spacedAfter rest) later) :
    vocabulary.lexicon.Yields (operandExpected before)
      (token.text.toList ++ Formula.spacedAfter rest) (token :: later) := by
  have writes := writes_of_lexeme read
  cases isNumber : token.isNumber with
  | true =>
      cases writes with
      | @number decimal _ =>
          have isFinite := finite _ rfl
          have unsigned := Numeral.abs_toFloat decimal
          have reads := readable _ rfl isFinite unsigned
          rw [Numeral.PlainReadsBack, Option.map_eq_some_iff] at reads
          obtain ⟨shortest, parsed, same⟩ := reads
          have again : vocabulary.lexicon.Yields (operandExpected before) _ _ :=
            Yields.literal parsed
              (fun _ member => Numeral.isLiteralBody_of_mem_plainText isFinite unsigned member)
              (isBoundary_spacedAfter rest) onward
          rwa [same] at again
      | _ => contradiction
  | false =>
      rw [writes.text_eq isNumber]
      exact .cons visible (fun position _ expects => lexeme_append read
        (Token.endsAlike_spacedAfter isNumber call after) (.inl expects) position) onward

theorem Passes.yields_spacedText
    (passes : vocabulary.lexicon.Passes position before text tokens last [])
    (finite : ∀ value, .number value ∈ tokens.map Located.token → value.isFinite = true)
    (readable : ∀ value, .number value ∈ tokens.map Located.token → value.isFinite = true →
      value.abs = value → Numeral.PlainReadsBack value) :
    vocabulary.lexicon.Yields (operandExpected before)
      (spacedText (tokens.map Located.token)).toList (tokens.map Located.token) := by
  generalize empty : ([] : List Char) = rest at passes
  induction passes with
  | done => exact yields_nil
  | blank _ _ ih => exact ih finite readable empty
  | token visible read onward ih =>
      subst empty
      simp only [List.map_cons, List.mem_cons] at finite readable
      rw [List.map_cons, toList_spacedText_cons]
      refine yields_text_of_lexeme visible read (fun value same => finite value (.inl same.symm))
        (fun value same => readable value (.inl same.symm)) (fun isFunction => ?_) (.spacedAfter ?_)
      · have begins := beginsCall_of_lexeme isFunction read
        rw [Nat.add_sub_cancel, List.drop_left] at begins
        exact scan_head_of_beginsCall (by rwa [List.drop_zero]) onward.scan_eq
      · have further := ih (fun value member => finite value (.inr member))
          (fun value member => readable value (.inr member)) rfl
        rwa [operandExpected_eq, Option.any_some] at further

end Lexicon

/-- The tokens of a text, written with blanks between them, are read as the same tokens, if the
numbers are finite and those without a sign can be read from their texts. -/
theorem Vocabulary.tokens_spacedText {vocabulary : Vocabulary} {text : String}
    {tokens : List Located} (lexed : vocabulary.lexicon.tokens text = .ok tokens)
    (finite : ∀ value, .number value ∈ tokens.map Located.token → value.isFinite = true)
    (readable : ∀ value, .number value ∈ tokens.map Located.token → value.isFinite = true →
      value.abs = value → Numeral.PlainReadsBack value) :
    ∃ again, vocabulary.lexicon.tokens (spacedText (tokens.map Located.token)) = .ok again ∧
      again.map Located.token = tokens.map Located.token := by
  obtain ⟨last, passes⟩ := Lexicon.exists_passes_of_scan lexed
  exact passes.yields_spacedText finite readable 0 none rfl

/-- A number with an exponent is written without one, and blanks part the runs `e<>~`, `xy2!f` and
`,-x`, in which the minus is the prefix operator, unlike the one before. -/
theorem Vocabulary.tokens_spacedText_of_runs :
    let vocabulary : Vocabulary :=
      { names := ["x", "xy", "e"]
        functions := [⟨"f", 2⟩]
        operators := [⟨"!", 1, true, 10001⟩, ⟨"<>", 2, true, 500⟩, ⟨"~", 1, false, 5000⟩] }
    let tokens : List Located :=
      [⟨.number 2000, 0, 3⟩, ⟨.var "x", 3, 4⟩, ⟨.operator ⟨"-", 2, true, 500⟩, 4, 5⟩,
        ⟨.number 2, 5, 6⟩, ⟨.var "e", 6, 7⟩, ⟨.operator ⟨"<>", 2, true, 500⟩, 7, 9⟩,
        ⟨.operator ⟨"~", 1, false, 5000⟩, 9, 10⟩, ⟨.var "xy", 10, 12⟩, ⟨.number 2, 12, 13⟩,
        ⟨.operator ⟨"!", 1, true, 10001⟩, 13, 14⟩, ⟨.function ⟨"f", 2⟩, 14, 15⟩, ⟨.openParen, 15, 16⟩,
        ⟨.number 1.5, 16, 20⟩, ⟨.comma, 20, 21⟩, ⟨.operator ⟨"-", 1, false, 5000⟩, 21, 22⟩,
        ⟨.var "x", 22, 23⟩, ⟨.closeParen, 23, 24⟩]
    vocabulary.lexicon.tokens "2e3x-2e<>~xy2!f(1.50,-x)" = .ok tokens ∧
      spacedText (tokens.map Located.token) = "2000 x - 2 e <> ~ xy 2 ! f ( 1.5 , - x )" ∧
      (∀ value, .number value ∈ tokens.map Located.token → value.isFinite = true) ∧
      (∀ value, .number value ∈ tokens.map Located.token → value.isFinite = true →
        value.abs = value → Numeral.PlainReadsBack value) ∧
      ∃ again, vocabulary.lexicon.tokens (spacedText (tokens.map Located.token)) = .ok again ∧
        again.map Located.token = tokens.map Located.token := by
  intro vocabulary tokens
  have lexed : vocabulary.lexicon.tokens "2e3x-2e<>~xy2!f(1.50,-x)" = .ok tokens := by
    decide +kernel
  have numbers : ∀ value, .number value ∈ tokens.map Located.token →
      value = 2000 ∨ value = 2 ∨ value = 1.5 := by
    intro value member
    simpa [tokens] using member
  have finite : ∀ value, .number value ∈ tokens.map Located.token → value.isFinite = true := by
    intro value member
    rcases numbers value member with rfl | rfl | rfl <;> decide +kernel
  have readable : ∀ value, .number value ∈ tokens.map Located.token → value.isFinite = true →
      value.abs = value → Numeral.PlainReadsBack value := by
    intro value member _ _
    rcases numbers value member with rfl | rfl | rfl <;> decide +kernel
  exact ⟨lexed, by decide +kernel, finite, readable,
    Vocabulary.tokens_spacedText lexed finite readable⟩

end Formula
