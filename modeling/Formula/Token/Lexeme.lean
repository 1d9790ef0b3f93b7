import Formula.Character.Blank
import Formula.Character.Alphabetic
import Formula.Character.Numeric
import Formula.Decimal.Literal
import Formula.Error
import Formula.Token.Located
import Formula.Vocabulary

namespace Formula

open Character

/-! One token at the start of a text: its kind by the first character, its extent by the longest
part that has a meaning.
-/

def isWordStart (character : Char) : Bool := isAlphabetic character || character == '_'

def isWordPart (character : Char) : Bool :=
  isAlphabetic character || isNumeric character || character == '_'

/-- The longest known beginning of a run among those of at most `bound` characters, with its
length; the empty beginning is never known. -/
def longestKnownUpTo {β : Type} (known? : String → Option β) (run : List Char) :
    Nat → Option (β × Nat)
  | 0 => none
  | bound + 1 =>
      match known? (String.ofList (run.take (bound + 1))) with
      | some meaning => some (meaning, bound + 1)
      | none => longestKnownUpTo known? run bound

/-- The longest known beginning of a run, with its length. -/
def longestKnown {β : Type} (known? : String → Option β) (run : List Char) : Option (β × Nat) :=
  longestKnownUpTo known? run run.length

theorem longestKnownUpTo_eq_some {β : Type} {known? : String → Option β} {run : List Char}
    {bound length : Nat} {meaning : β}
    (found : longestKnownUpTo known? run bound = some (meaning, length)) :
    0 < length ∧ length ≤ bound ∧ known? (String.ofList (run.take length)) = some meaning ∧
      ∀ longer, length < longer → longer ≤ bound →
        known? (String.ofList (run.take longer)) = none := by
  induction bound with
  | zero => simp [longestKnownUpTo] at found
  | succ bound ih =>
      cases whole : known? (String.ofList (run.take (bound + 1))) with
      | some first =>
          simp only [longestKnownUpTo, whole, Option.some.injEq, Prod.mk.injEq] at found
          obtain ⟨rfl, rfl⟩ := found
          exact ⟨by omega, by omega, whole, fun longer above below => by omega⟩
      | none =>
          simp only [longestKnownUpTo, whole] at found
          obtain ⟨positive, fits, known, maximal⟩ := ih found
          refine ⟨positive, by omega, known, fun longer above below => ?_⟩
          by_cases last : longer = bound + 1
          · rw [last, whole]
          · exact maximal longer above (by omega)

/-- Whether an argument list begins here, after any blanks. -/
def beginsCall (text : List Char) : Bool := (text.dropWhile isBlank).head? == some '('

/-- Whether an operand is expected after the token before, if there is one. -/
def operandExpected : (before : Option Token) → Bool
  | none | some .openParen | some .comma | some (.function _) => true
  | some (.operator definition) => !definition.isSuffix
  | some (.number _) | some (.var _) | some .closeParen => false

/-- An operand is expected where none has ended. -/
theorem operandExpected_eq (before : Option Token) :
    operandExpected before = !before.any Token.endsOperand := by
  rcases before with _ | token
  · rfl
  · cases token <;> rfl

namespace Lexicon

def number (text : List Char) (start : Nat) : Except SyntaxError (Token × Nat) :=
  let literal := Decimal.literalPart text
  match Decimal.ofText? literal with
  | some decimal => .ok (.number decimal.toFloat, literal.length)
  | none => .error (.invalidNumber (String.ofList literal) ⟨start, start + literal.length⟩)

def word (lexicon : Lexicon) (text : List Char) (start : Nat) : Except SyntaxError (Token × Nat) :=
  let run := text.takeWhile isWordPart
  match longestKnown lexicon.word? run with
  | none => .error (.unknownIdentifier (String.ofList run) ⟨start, start + run.length⟩)
  | some (.name name, length) => .ok (.var name, length)
  | some (.function definition, length) =>
      if beginsCall (text.drop length) then .ok (.function definition, length)
      else .error (.missingCall definition.name ⟨start, start + length⟩)

def symbol (lexicon : Lexicon) (before : Option Token) (text : List Char) (start : Nat) :
    Except SyntaxError (Token × Nat) :=
  let run := text.takeWhile isOperatorChar
  match longestKnown (lexicon.operator? (operandExpected before)) run with
  | none => .error (.unknownOperator (String.ofList run) ⟨start, start + run.length⟩)
  | some (definition, length) => .ok (.operator definition, length)

/-- The token at the start of a text that begins with no blank, and its length. -/
def lexeme (lexicon : Lexicon) (before : Option Token) (start : Nat) (first : Char)
    (rest : List Char) : Except SyntaxError (Token × Nat) :=
  if Decimal.isLiteralBody first then number (first :: rest) start
  else if first == '(' then .ok (.openParen, 1)
  else if first == ')' then .ok (.closeParen, 1)
  else if first == ',' then .ok (.comma, 1)
  else if isWordStart first then lexicon.word (first :: rest) start
  else if isOperatorChar first then lexicon.symbol before (first :: rest) start
  else .error (.unexpectedCharacter first (.ofPosition start))

/-- The tokens of a text. `covered` counts the characters at its start that belong to the token
before; `position` is the position of its first character. -/
def scan (lexicon : Lexicon) :
    (covered position : Nat) → (before : Option Token) → List Char →
      Except SyntaxError (List Located)
  | _, _, _, [] => .ok []
  | covered + 1, position, before, _ :: rest => lexicon.scan covered (position + 1) before rest
  | 0, position, before, first :: rest =>
      if isBlank first then lexicon.scan 0 (position + 1) before rest
      else
        match lexicon.lexeme before position first rest with
        | .error reason => .error reason
        | .ok (token, length) =>
            (lexicon.scan (length - 1) (position + 1) (some token) rest).map
              (⟨token, ⟨position, position + length⟩⟩ :: ·)

/-- The tokens of a formula, each with the characters that wrote it. -/
def tokens (lexicon : Lexicon) (text : String) : Except SyntaxError (List Located) :=
  lexicon.scan 0 0 none text.toList

end Lexicon

end Formula
