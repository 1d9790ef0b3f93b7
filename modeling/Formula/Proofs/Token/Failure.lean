import Formula.Proofs.Token.Coverage

namespace Formula

open Character

/-! Where the reading of a text fails.

A text that cannot be read has a first place where no token begins. The error is about the characters
that stand there, and what stands before them can be read by itself.
-/

/-- The characters that an error of reading is about, and where they stand. -/
def SyntaxError.offence? : SyntaxError → Option (List Char × Span)
  | unexpectedCharacter character span => some ([character], span)
  | invalidNumber text span | unknownIdentifier text span | unknownOperator text span
  | missingCall text span => some (text.toList, span)
  | mismatchedParentheses | misplacedComma | missingOperands _ | tooManyOperands _ | empty => none

namespace Lexicon

variable {vocabulary : Vocabulary} {before : Option Token} {start : Nat} {first : Char}
variable {text rest : List Char} {reason : SyntaxError}

/-- The error is about a beginning of the text. -/
def IsAbout (reason : SyntaxError) (start : Nat) (text : List Char) : Prop :=
  ∃ part, part <+: text ∧ part ≠ [] ∧
    reason.offence? = some (part, ⟨start, start + part.length⟩)

theorem isAbout_of_number_error (body : Decimal.isLiteralBody first = true)
    (failed : number (first :: rest) start = .error reason) :
    IsAbout reason start (first :: rest) := by
  simp only [number] at failed
  split at failed
  · contradiction
  · cases failed
    refine ⟨_, Decimal.literalPart_isPrefix _, ?_, by simp [SyntaxError.offence?]⟩
    simp [Decimal.literalPart, body]

theorem isAbout_of_word_error (starts : isWordStart first = true)
    (failed : vocabulary.lexicon.word (first :: rest) start = .error reason) :
    IsAbout reason start (first :: rest) := by
  have nonempty : (first :: rest).takeWhile isWordPart ≠ [] := by
    simp [isWordPart_of_isWordStart starts]
  simp only [word] at failed
  split at failed
  · cases failed
    exact ⟨_, List.takeWhile_prefix _, nonempty, by simp [SyntaxError.offence?]⟩
  · contradiction
  case h_3 definition length known =>
    split at failed
    · contradiction
    · cases failed
      obtain ⟨positive, fits, isKnown, _⟩ := longestKnownUpTo_eq_some known
      have named := Vocabulary.name_of_function? (Vocabulary.function?_of_word? isKnown)
      refine ⟨_, (List.take_prefix length _).trans (List.takeWhile_prefix isWordPart), ?_, ?_⟩
      · simp [Nat.ne_of_gt positive, nonempty]
      · rw [List.length_take, min_eq_left fits, SyntaxError.offence?, named, String.toList_ofList]

theorem isAbout_of_symbol_error (isOperator : isOperatorChar first = true)
    (failed : vocabulary.lexicon.symbol before (first :: rest) start = .error reason) :
    IsAbout reason start (first :: rest) := by
  have nonempty : (first :: rest).takeWhile isOperatorChar ≠ [] := by simp [isOperator]
  simp only [symbol] at failed
  split at failed
  · cases failed
    exact ⟨_, List.takeWhile_prefix _, nonempty, by simp [SyntaxError.offence?]⟩
  · contradiction

/-- Where no token can be read, the error is about the characters that stand there. -/
theorem isAbout_of_lexeme_error
    (failed : vocabulary.lexicon.lexeme before start first rest = .error reason) :
    IsAbout reason start (first :: rest) := by
  unfold lexeme at failed
  split at failed
  case isTrue body => exact isAbout_of_number_error body failed
  split at failed
  · contradiction
  split at failed
  · contradiction
  split at failed
  · contradiction
  split at failed
  case isTrue starts => exact isAbout_of_word_error starts failed
  split at failed
  case isTrue isOperator => exact isAbout_of_symbol_error isOperator failed
  · cases failed
    exact ⟨[first], by simp, by simp, rfl⟩

end Lexicon

/-- If a text cannot be read, then the error points at the characters of the text that it is about,
and the text before them can be read. -/
theorem Vocabulary.offence_of_tokens_error {vocabulary : Vocabulary} {text : String}
    {reason : SyntaxError} (failed : vocabulary.lexicon.tokens text = .error reason) :
    ∃ offending span, reason.offence? = some (offending, span) ∧
      span.start < span.stop ∧ span.stop ≤ text.length ∧
      span.characters text.toList = offending ∧
      ∃ tokens,
        vocabulary.lexicon.tokens (String.ofList (text.toList.take span.start)) = .ok tokens := by
  rcases Lexicon.scan_cases vocabulary.lexicon 0 none text.toList with
    ⟨tokens, _, read, _⟩ | ⟨_, tokens, last, passed, first, rest, fails, whole, visible, passes, unread⟩
  · cases read.symm.trans failed
  cases fails.symm.trans failed
  have severs : Lexicon.Severs (first :: rest) := by
    intro next isNext
    obtain rfl : first = next := by simpa using isNext
    refine ⟨visible, ?_⟩
    rintro rfl
    cases (Lexicon.lexeme_openParen _ _ _ _).symm.trans unread
  obtain ⟨before, split, readable⟩ := passes.exists_passed severs
  obtain rfl : before = passed := List.append_cancel_right (split.symm.trans whole)
  rw [Nat.zero_add] at unread
  obtain ⟨part, ⟨after, here⟩, nonempty, offence⟩ := Lexicon.isAbout_of_lexeme_error unread
  have positive := List.length_pos_iff.mpr nonempty
  rw [← here] at whole
  refine ⟨part, _, offence, by simpa using positive, ?_, ?_, tokens, ?_⟩
  · rw [← String.length_toList, whole, List.length_append, List.length_append]
    exact Nat.add_le_add_left (Nat.le_add_right _ _) _
  · rw [Span.characters, whole, List.drop_left, Nat.add_sub_cancel_left, List.take_left]
  · rw [whole, List.take_left, Lexicon.tokens, String.toList_ofList]
    exact readable.scan_eq

/-- After `2e-x*`, a number, the name `e` and two operators, the function at `sin` is not called: the
error is about these three characters, not about the `x` where a parenthesis would be read. -/
theorem Vocabulary.offence_of_tokens_error_of_missing_call :
    let vocabulary : Vocabulary := { names := ["x", "e"] }
    let reason : SyntaxError := .missingCall "sin" ⟨5, 8⟩
    vocabulary.lexicon.tokens "2e-x*sin x" = .error reason ∧
      ∃ offending span, reason.offence? = some (offending, span) ∧
        span.start < span.stop ∧ span.stop ≤ "2e-x*sin x".length ∧
        span.characters "2e-x*sin x".toList = offending ∧
        ∃ tokens, vocabulary.lexicon.tokens
          (String.ofList ("2e-x*sin x".toList.take span.start)) = .ok tokens := by
  intro vocabulary reason
  have failed : vocabulary.lexicon.tokens "2e-x*sin x" = .error reason := by decide +kernel
  exact ⟨failed, Vocabulary.offence_of_tokens_error failed⟩

end Formula
