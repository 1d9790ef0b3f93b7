import Formula.Proofs.Token.Extent
import Formula.Proofs.Token.Spelling

namespace Formula

open Character

/-! What the reading of a token depends on.

A number is read up to a character that cannot be part of it, so what stands from there on does not
matter. A name, a function or an operator is the longest one with which a run of characters begins,
so the run may become shorter; a function looks further, for its parenthesis. So a text can be
changed behind a token without changing the token, as long as it ends there in a similar way: by a
blank that is written there, or by the end of the text.
-/

namespace Token

/-- Whether the token is read from a word. -/
def isWord : Token → Bool
  | .var _ | .function _ => true
  | .number _ | .operator _ | .openParen | .closeParen | .comma => false

/-- Before the other text the token ends where it ends before the first. -/
structure EndsAlike (token : Token) (after other : List Char) : Prop where
  number : token.isNumber = true →
    (∀ next ∈ other.head?, Decimal.isLiteralBody next = false ∨ after.head? = some next) ∧
      (Decimal.exponentPart after = [] → Decimal.exponentPart other = [])
  word : token.isWord = true → other.takeWhile isWordPart <+: after.takeWhile isWordPart
  call : token.isFunction = true → beginsCall other = true
  symbol : ∀ operator, token = .operator operator →
    other.takeWhile isOperatorChar <+: after.takeWhile isOperatorChar

end Token

namespace Decimal

theorem splitSign_append_right (first : Char) (rest after : List Char) :
    splitSign (first :: rest ++ after) =
      ((splitSign (first :: rest)).1, (splitSign (first :: rest)).2 ++ after) := by
  by_cases plus : first = '+'
  · subst plus
    rfl
  by_cases minus : first = '-'
  · subst minus
    rfl
  simp [splitSign, plus, minus]

theorem exponentPart_singleton_append (mark : Char) (after : List Char) :
    exponentPart (mark :: after) ≠ [mark] := by
  intro read
  simp only [exponentPart] at read
  split at read
  case isTrue digits => simp_all
  case isFalse => contradiction

theorem exponentPart_append {part after other : List Char} (nonempty : part ≠ [])
    (read : exponentPart (part ++ after) = part)
    (ends : ∀ next ∈ other.head?, next.isDigit = false ∨ after.head? = some next) :
    exponentPart (part ++ other) = part := by
  obtain ⟨mark, more, rfl⟩ := List.exists_cons_of_ne_nil nonempty
  cases more with
  | nil => exact absurd read (exponentPart_singleton_append mark after)
  | cons first rest =>
      have whole := splitSign_append (first :: rest)
      simp only [List.cons_append, exponentPart] at read ⊢
      rw [← List.cons_append, splitSign_append_right] at read ⊢
      simp only at read ⊢
      split at read
      case isFalse => contradiction
      case isTrue exponent =>
        have run : ((splitSign (first :: rest)).2 ++ after).takeWhile Char.isDigit =
            (splitSign (first :: rest)).2 := by
          have same := (List.cons.inj read).2
          conv at same => rhs; rw [← whole]
          exact List.append_cancel_left same
        rw [run] at exponent
        obtain ⟨taken, _⟩ := takeWhile_append_of_head_or run ends
        rw [taken, if_pos exponent, whole]

theorem exponentPart_eq_nil {text : List Char}
    (noMark : ∀ next ∈ text.head?, next ≠ 'e' ∧ next ≠ 'E') : exponentPart text = [] := by
  cases text with
  | nil => rfl
  | cons first rest =>
      obtain ⟨small, large⟩ := noMark first rfl
      simp [exponentPart, small, large]

theorem literalPart_eq_of_length {body after : List Char}
    (reach : body.length = (literalPart (body ++ after)).length) :
    literalPart (body ++ after) = body := by
  have beginning := List.prefix_iff_eq_take.mp (literalPart_isPrefix (body ++ after))
  rwa [← reach, List.take_left] at beginning

theorem literalPart_append {body after other : List Char} (read : literalPart (body ++ after) = body)
    (ends : ∀ next ∈ other.head?, isLiteralBody next = false ∨ after.head? = some next)
    (noExponent : exponentPart after = [] → exponentPart other = []) :
    literalPart (body ++ other) = body := by
  have whole := @List.takeWhile_append_dropWhile Char isLiteralBody (body ++ after)
  have inside := List.all_eq_true.mp (@List.all_takeWhile _ isLiteralBody (body ++ after))
  have stops := List.head?_dropWhile_not isLiteralBody (body ++ after)
  simp only [literalPart] at read
  generalize (body ++ after).takeWhile isLiteralBody = digits at whole inside read
  generalize (body ++ after).dropWhile isLiteralBody = tail at whole stops read
  subst read
  rw [List.append_assoc, List.append_cancel_left_eq] at whole
  rw [whole] at stops
  have again : exponentPart (exponentPart tail ++ after) = exponentPart tail := by rw [← whole]
  rw [literalPart, List.append_assoc]
  cases exponent : exponentPart tail with
  | nil =>
      rw [exponent, List.nil_append] at stops again
      have outside : ∀ next ∈ other.head?, isLiteralBody next = false := by
        intro next isNext
        refine (ends next isNext).elim id fun same => ?_
        rw [same] at stops
        exact stops
      obtain ⟨taken, dropped⟩ := takeWhile_append_of_head inside outside
      rw [List.nil_append, taken, dropped, noExponent again]
  | cons mark more =>
      rw [exponent] at stops again
      have outside : ∀ next ∈ (mark :: more ++ other).head?, isLiteralBody next = false := by
        intro next isNext
        obtain rfl : mark = next := by simpa using isNext
        exact stops
      obtain ⟨taken, dropped⟩ := takeWhile_append_of_head inside outside
      rw [taken, dropped]
      refine congrArg (digits ++ ·) (exponentPart_append (by simp) again fun next isNext => ?_)
      refine (ends next isNext).imp (fun outside => ?_) id
      exact (Bool.or_eq_false_iff.mp outside).1

end Decimal

namespace Lexicon

variable {lexicon : Lexicon} {before other : Option Token} {start length : Nat} {first : Char}
variable {rest part after changed : List Char} {token : Token}

theorem length_le_of_lexeme
    (read : lexicon.lexeme before start first rest = .ok (token, length)) :
    length ≤ (first :: rest).length := by
  have inRun {β : Type} {known? : String → Option β} {p : Char → Bool} {meaning : β}
      (known : longestKnown known? ((first :: rest).takeWhile p) = some (meaning, length)) :
      length ≤ (first :: rest).length :=
    (longestKnownUpTo_eq_some known).2.1.trans (List.takeWhile_prefix p).length_le
  rcases lexeme_cases read with asNumber | ⟨_, rfl⟩ | asWord | asSymbol
  · obtain ⟨_, _, _, rfl⟩ := number_cases asNumber
    exact (Decimal.literalPart_isPrefix _).length_le
  · simp
  · obtain ⟨_, known, _⟩ := word_cases asWord
    exact inRun known
  · obtain ⟨_, known, _⟩ := symbol_cases asSymbol
    exact inRun known

theorem exists_part_of_lexeme
    (read : lexicon.lexeme before start first rest = .ok (token, length)) :
    ∃ part after, rest = part ++ after ∧ length = part.length + 1 := by
  have positive := length_pos_of_lexeme read
  have fits := length_le_of_lexeme read
  rw [List.length_cons] at fits
  refine ⟨rest.take (length - 1), rest.drop (length - 1), (List.take_append_drop ..).symm, ?_⟩
  rw [List.length_take]
  omega

theorem take_of_longestKnown {β : Type} {known? : String → Option β} {p : Char → Bool} {meaning : β}
    {body : List Char}
    (known : longestKnown known? ((body ++ after).takeWhile p) = some (meaning, body.length)) :
    known? (String.ofList body) = some meaning ∧ (∀ character ∈ body, p character = true) ∧
      body ≠ [] := by
  obtain ⟨positive, fits, isKnown, _⟩ := longestKnownUpTo_eq_some known
  have beginning : ((body ++ after).takeWhile p).take body.length = body := by
    rw [List.prefix_iff_eq_take.mp (List.takeWhile_prefix p), List.take_take, min_eq_left fits,
      List.take_left]
  rw [beginning] at isKnown
  refine ⟨isKnown, fun character member => ?_, List.ne_nil_of_length_pos positive⟩
  rw [← beginning] at member
  exact List.all_eq_true.mp List.all_takeWhile _ (List.mem_of_mem_take member)

theorem number_append {body : List Char}
    (read : number (body ++ after) start = .ok (token, body.length))
    (ends : ∀ next ∈ changed.head?, Decimal.isLiteralBody next = false ∨ after.head? = some next)
    (noExponent : Decimal.exponentPart after = [] → Decimal.exponentPart changed = [])
    (position : Nat) : number (body ++ changed) position = .ok (token, body.length) := by
  obtain ⟨decimal, parsed, rfl, reach⟩ := number_cases read
  have same := Decimal.literalPart_eq_of_length reach
  rw [same] at parsed
  simp only [number, Decimal.literalPart_append same ends noExponent, parsed]

theorem longestKnown_append {β : Type} {known? : String → Option β} {p : Char → Bool} {meaning : β}
    {body : List Char}
    (known : longestKnown known? ((body ++ after).takeWhile p) = some (meaning, body.length))
    (shorter : changed.takeWhile p <+: after.takeWhile p) :
    longestKnown known? ((body ++ changed).takeWhile p) = some (meaning, body.length) := by
  obtain ⟨_, inside, _⟩ := take_of_longestKnown known
  rw [List.takeWhile_append_of_pos inside] at known ⊢
  exact longestKnown_of_isPrefix known ((List.prefix_append_right_inj body).mpr shorter) (by simp)

theorem word_append {body : List Char}
    (read : lexicon.word (body ++ after) start = .ok (token, body.length))
    (shorter : changed.takeWhile isWordPart <+: after.takeWhile isWordPart)
    (begins : token.isFunction = true → beginsCall changed = true) (position : Nat) :
    lexicon.word (body ++ changed) position = .ok (token, body.length) := by
  obtain ⟨meaning, known, rfl, _⟩ := word_cases read
  simp only [word, longestKnown_append known shorter]
  cases meaning with
  | name text => rfl
  | function definition =>
      simp only [List.drop_left, begins rfl, ↓reduceIte]
      rfl

theorem symbol_append {body : List Char}
    (read : lexicon.symbol before (body ++ after) start = .ok (token, body.length))
    (shorter : changed.takeWhile isOperatorChar <+: after.takeWhile isOperatorChar)
    (expects : operandExpected other = operandExpected before) (position : Nat) :
    lexicon.symbol other (body ++ changed) position = .ok (token, body.length) := by
  obtain ⟨operator, known, rfl⟩ := symbol_cases read
  simp only [symbol, expects, longestKnown_append known shorter]

/-- A token is read in the same way before another text if it ends there alike; what stands before
matters to an operator only. -/
theorem lexeme_append
    (read : lexicon.lexeme before start first (part ++ after) = .ok (token, part.length + 1))
    (ends : token.EndsAlike after changed)
    (expects : operandExpected other = operandExpected before ∨ token.beginsOperand = true)
    (position : Nat) :
    lexicon.lexeme other position first (part ++ changed) = .ok (token, part.length + 1) := by
  cases body : Decimal.isLiteralBody first with
  | true =>
      rw [lexeme_of_isLiteralBody _ _ _ _ body] at read ⊢
      have isNumber : token.isNumber = true := by
        obtain ⟨_, _, rfl, _⟩ := number_cases read
        rfl
      obtain ⟨stops, noExponent⟩ := ends.number isNumber
      exact @number_append start after changed token (first :: part) read stops noExponent position
  | false =>
  cases word : isWordStart first with
  | true =>
      rw [lexeme_of_isWordStart _ _ _ _ word] at read ⊢
      have isWord : token.isWord = true := by
        obtain ⟨meaning, _, rfl, _⟩ := word_cases read
        cases meaning <;> rfl
      exact @word_append lexicon start after changed token (first :: part) read (ends.word isWord)
        ends.call position
  | false =>
  cases symbol : isOperatorChar first with
  | true =>
      rw [lexeme_of_isOperatorChar _ _ _ _ symbol] at read ⊢
      obtain ⟨operator, _, rfl⟩ := symbol_cases read
      have place := expects.resolve_right (by simp [Token.beginsOperand])
      exact @symbol_append lexicon before other start after changed _ (first :: part) read
        (ends.symbol operator rfl) place position
  | false =>
      simp only [lexeme, body, word, symbol, Bool.false_eq_true, ↓reduceIte] at read ⊢
      split_ifs at read ⊢
      · exact read
      · exact read
      · exact read

end Lexicon

end Formula
