import Formula.Token.Lexeme

namespace Formula

/-! The classes of characters that begin a token. They have no character in common, so the first
character alone decides how a token is read.
-/

namespace Character

theorem exists_of_memberOfRanges {ranges : List (Nat × Nat)} {point : Nat}
    (member : memberOfRanges ranges point = true) :
    ∃ range ∈ ranges, range.1 ≤ point ∧ point ≤ range.2 := by
  induction ranges with
  | nil => contradiction
  | cons range later ih =>
      simp only [memberOfRanges] at member
      split at member
      · contradiction
      split at member
      · exact ⟨range, by simp, by omega, by omega⟩
      · obtain ⟨found, isLater, bounds⟩ := ih member
        exact ⟨found, by simp [isLater], bounds⟩

/-- The code points of the ranges, one by one. -/
def points (ranges : List (Nat × Nat)) : List Nat :=
  ranges.flatMap fun range => List.range' range.1 (range.2 + 1 - range.1)

theorem mem_points_of_memberOfRanges {ranges : List (Nat × Nat)} {point : Nat}
    (member : memberOfRanges ranges point = true) : point ∈ points ranges := by
  obtain ⟨range, isRange, above, below⟩ := exists_of_memberOfRanges member
  refine List.mem_flatMap.mpr ⟨range, isRange, ?_⟩
  rw [List.mem_range'_1]
  omega

theorem isAlphabetic_eq_false_of_isBlank {character : Char} (blank : isBlank character = true) :
    isAlphabetic character = false := by
  have apart : ∀ point ∈ points blankRanges, memberOfRanges alphabeticRanges point = false := by
    decide +kernel
  exact apart _ (mem_points_of_memberOfRanges blank)

theorem mem_digits_of_isDigit {character : Char} (digit : character.isDigit = true) :
    character.toNat ∈ List.range' 48 10 := by
  simp only [Char.isDigit, Bool.and_eq_true, decide_eq_true_eq] at digit
  exact List.mem_range'_1.mpr ⟨digit.1, Nat.lt_succ_of_le digit.2⟩

theorem isAlphabetic_eq_false_of_isDigit {character : Char} (digit : character.isDigit = true) :
    isAlphabetic character = false := by
  have apart : ∀ point ∈ List.range' 48 10, memberOfRanges alphabeticRanges point = false := by
    decide
  exact apart _ (mem_digits_of_isDigit digit)

theorem isBlank_eq_false_of_isLiteralBody {character : Char}
    (body : Decimal.isLiteralBody character = true) : isBlank character = false := by
  have apart : ∀ point ∈ List.range' 48 10, memberOfRanges blankRanges point = false := by
    decide
  rcases Bool.or_eq_true_iff.mp body with digit | point
  · exact apart _ (mem_digits_of_isDigit digit)
  · rw [beq_iff_eq.mp point]
    rfl

theorem isBlank_eq_false_of_isWordStart {character : Char}
    (starts : isWordStart character = true) : isBlank character = false := by
  rw [Bool.eq_false_iff]
  intro blank
  rcases Bool.or_eq_true_iff.mp starts with letter | underscore
  · rw [isAlphabetic_eq_false_of_isBlank blank] at letter
    contradiction
  · rw [beq_iff_eq.mp underscore] at blank
    contradiction

theorem isLiteralBody_eq_false_of_isWordStart {character : Char}
    (starts : isWordStart character = true) : Decimal.isLiteralBody character = false := by
  rw [Bool.eq_false_iff]
  intro body
  rcases Bool.or_eq_true_iff.mp body with digit | point
  · rcases Bool.or_eq_true_iff.mp starts with letter | underscore
    · rw [isAlphabetic_eq_false_of_isDigit digit] at letter
      contradiction
    · rw [beq_iff_eq.mp underscore] at digit
      contradiction
  · rw [beq_iff_eq.mp point] at starts
    contradiction

theorem isWordPart_of_isWordStart {character : Char} (starts : isWordStart character = true) :
    isWordPart character = true := by
  rcases Bool.or_eq_true_iff.mp starts with letter | underscore <;> simp_all [isWordPart]

theorem mem_of_isOperatorChar {character : Char} (isOperator : isOperatorChar character = true) :
    character ∈ "+-*/^%!#§$&;:~<>|=".toList := by
  simpa [isOperatorChar] using isOperator

/-- An operator character is of no other class. -/
theorem of_isOperatorChar {character : Char} (isOperator : isOperatorChar character = true) :
    isBlank character = false ∧ Decimal.isLiteralBody character = false ∧
      isWordStart character = false ∧ character ∉ "(),".toList := by
  have classes : "+-*/^%!#§$&;:~<>|=".toList.all (fun mark => !isBlank mark &&
      !Decimal.isLiteralBody mark && !isWordStart mark && !"(),".toList.contains mark) = true := by
    decide
  have here := List.all_eq_true.mp classes character (mem_of_isOperatorChar isOperator)
  simp only [Bool.and_eq_true, Bool.not_eq_true', List.contains_eq_mem, decide_eq_false_iff_not]
    at here
  exact ⟨here.1.1.1, here.1.1.2, here.1.2, here.2⟩

theorem isOperatorChar_eq_false_of_isLiteralBody {character : Char}
    (body : Decimal.isLiteralBody character = true) : isOperatorChar character = false := by
  rw [Bool.eq_false_iff]
  intro isOperator
  rw [(of_isOperatorChar isOperator).2.1] at body
  contradiction

theorem isOperatorChar_eq_false_of_isWordStart {character : Char}
    (starts : isWordStart character = true) : isOperatorChar character = false := by
  rw [Bool.eq_false_iff]
  intro isOperator
  rw [(of_isOperatorChar isOperator).2.2.1] at starts
  contradiction

theorem isWordPart_eq_false_of_isBlank {character : Char} (blank : isBlank character = true) :
    isWordPart character = false := by
  have apart : ∀ point ∈ points blankRanges, memberOfRanges numericRanges point = false := by
    decide +kernel
  have noNumeral : isNumeric character = false := apart _ (mem_points_of_memberOfRanges blank)
  have noUnderscore : (character == '_') = false := by
    rw [Bool.eq_false_iff]
    intro underscore
    rw [beq_iff_eq.mp underscore] at blank
    contradiction
  rw [isWordPart, isAlphabetic_eq_false_of_isBlank blank, noNumeral, noUnderscore]
  rfl

theorem isWordPart_eq_false_of_isOperatorChar {character : Char}
    (isOperator : isOperatorChar character = true) : isWordPart character = false := by
  have apart : "+-*/^%!#§$&;:~<>|=".toList.all (!isWordPart ·) = true := by decide
  simpa using List.all_eq_true.mp apart character (mem_of_isOperatorChar isOperator)

end Character

namespace Lexicon

open Character

variable (lexicon : Lexicon) (before : Option Token) (start : Nat) {first : Char}
variable (rest : List Char)

theorem lexeme_of_isLiteralBody (body : Decimal.isLiteralBody first = true) :
    lexicon.lexeme before start first rest = number (first :: rest) start :=
  if_pos body

theorem lexeme_of_isWordStart (starts : isWordStart first = true) :
    lexicon.lexeme before start first rest = lexicon.word (first :: rest) start := by
  have noBody := isLiteralBody_eq_false_of_isWordStart starts
  have noMark : first ∉ ['(', ')', ','] := by
    intro isMark
    simp only [List.mem_cons, List.not_mem_nil, or_false] at isMark
    rcases isMark with rfl | rfl | rfl <;> contradiction
  simp only [List.mem_cons, List.not_mem_nil, or_false, not_or] at noMark
  simp [lexeme, noBody, noMark, starts]

theorem lexeme_of_isOperatorChar (isOperator : isOperatorChar first = true) :
    lexicon.lexeme before start first rest = lexicon.symbol before (first :: rest) start := by
  obtain ⟨_, noBody, noWord, noMark⟩ := of_isOperatorChar isOperator
  simp only [String.reduceToList, List.mem_cons, List.not_mem_nil, or_false, not_or] at noMark
  simp [lexeme, noBody, noMark, noWord, isOperator]

end Lexicon

end Formula
