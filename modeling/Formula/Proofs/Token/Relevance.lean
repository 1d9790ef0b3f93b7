import Mathlib
import Formula.Proofs.Token.Placement
import Formula.Rpn

namespace Formula

/-! What of a lexicon the reading of a text depends on.

Reading looks up contiguous parts of the text and nothing else. So lexicons that agree on these parts
read the text alike, up to the same error if it cannot be read, and a declaration whose name or symbol
does not occur in the text could as well be left out.
-/

theorem longestKnown_congr {β : Type} {known? other? : String → Option β} {run : List Char}
    (agree : ∀ part, part <+: run → known? (String.ofList part) = other? (String.ofList part)) :
    longestKnown known? run = longestKnown other? run := by
  have bounded (bound : Nat) :
      longestKnownUpTo known? run bound = longestKnownUpTo other? run bound := by
    induction bound with
    | zero => rfl
    | succ bound ih => simp only [longestKnownUpTo, agree _ (List.take_prefix (bound + 1) run), ih]
  exact bounded run.length

namespace Lexicon

/-- Both lexicons give every contiguous part of the text the same meaning. -/
structure AgreesOn (lexicon other : Lexicon) (text : List Char) : Prop where
  word : ∀ part, part <:+: text →
    lexicon.word? (String.ofList part) = other.word? (String.ofList part)
  operator : ∀ expected part, part <:+: text →
    lexicon.operator? expected (String.ofList part) = other.operator? expected (String.ofList part)

variable {lexicon other : Lexicon} {first : Char} {text rest : List Char}

theorem AgreesOn.tail (agree : lexicon.AgreesOn other (first :: rest)) :
    lexicon.AgreesOn other rest where
  word part inside := agree.word part (inside.trans (List.suffix_cons first rest).isInfix)
  operator expected part inside :=
    agree.operator expected part (inside.trans (List.suffix_cons first rest).isInfix)

theorem isInfix_of_isPrefix_takeWhile {p : Char → Bool} {part : List Char}
    (begins : part <+: text.takeWhile p) : part <:+: text :=
  (begins.trans (List.takeWhile_prefix p)).isInfix

theorem AgreesOn.word_eq (agree : lexicon.AgreesOn other text) (start : Nat) :
    lexicon.word text start = other.word text start := by
  have same : longestKnown lexicon.word? (text.takeWhile isWordPart) =
      longestKnown other.word? (text.takeWhile isWordPart) :=
    longestKnown_congr fun part begins => agree.word part (isInfix_of_isPrefix_takeWhile begins)
  simp only [Lexicon.word, same]

theorem AgreesOn.symbol_eq (agree : lexicon.AgreesOn other text) (before : Option Token)
    (start : Nat) : lexicon.symbol before text start = other.symbol before text start := by
  have same : longestKnown (lexicon.operator? (operandExpected before))
        (text.takeWhile isOperatorChar) =
      longestKnown (other.operator? (operandExpected before)) (text.takeWhile isOperatorChar) :=
    longestKnown_congr fun part begins =>
      agree.operator (operandExpected before) part (isInfix_of_isPrefix_takeWhile begins)
  simp only [Lexicon.symbol, same]

theorem AgreesOn.lexeme_eq (agree : lexicon.AgreesOn other (first :: rest))
    (before : Option Token) (start : Nat) :
    lexicon.lexeme before start first rest = other.lexeme before start first rest := by
  simp only [Lexicon.lexeme, agree.word_eq, agree.symbol_eq]

/-- Scans with lexicons that agree on the text go the same way, to the same end. -/
theorem AgreesOn.scan_eq (agree : lexicon.AgreesOn other text) (covered position : Nat)
    (before : Option Token) :
    lexicon.scan covered position before text = other.scan covered position before text := by
  -- A part of what is left of the text is a part of the text, so agreement goes along.
  induction text generalizing covered position before with
  | nil => cases covered <;> rfl
  | cons first rest ih =>
      cases covered with
      | succ covered => exact ih agree.tail covered (position + 1) before
      | zero => simp only [Lexicon.scan, agree.lexeme_eq, ih agree.tail]

end Lexicon

/-- The RPN of a text, or its error, is the same with lexicons that agree on the text. -/
theorem Rpn.ofText_eq_of_agreesOn {lexicon other : Lexicon} {text : String}
    (agree : lexicon.AgreesOn other text.toList) (juxtaposition : Bool) :
    ofText lexicon juxtaposition text = ofText other juxtaposition text := by
  simp only [ofText, located, Lexicon.tokens, agree.scan_eq]

namespace Vocabulary

/-- The declarations of both; where both declare a function of one name, or an operator of one
symbol, the added one counts. -/
def extendedBy (vocabulary added : Vocabulary) : Vocabulary where
  names := vocabulary.names ++ added.names
  functions := added.functions ++ vocabulary.functions
  operators := added.operators ++ vocabulary.operators

/-- No name or symbol of the vocabulary is a contiguous part of the text. -/
structure IsAbsentFrom (vocabulary : Vocabulary) (text : String) : Prop where
  names : ∀ name ∈ vocabulary.names, ¬ name.toList <:+: text.toList
  functions : ∀ function ∈ vocabulary.functions, ¬ function.name.toList <:+: text.toList
  operators : ∀ operator ∈ vocabulary.operators, ¬ operator.symbol.toList <:+: text.toList

variable {vocabulary added : Vocabulary} {text : String} {part : List Char}

theorem extendedBy_function? (absent : added.IsAbsentFrom text) (inside : part <:+: text.toList) :
    (vocabulary.extendedBy added).function? (String.ofList part) =
      vocabulary.function? (String.ofList part) := by
  have none : added.declaredFunction? (String.ofList part) = none := by
    refine List.find?_eq_none.mpr fun function declared same => absent.functions function declared ?_
    rwa [beq_iff_eq.mp same, String.toList_ofList]
  have declared : (vocabulary.extendedBy added).declaredFunction? (String.ofList part) =
      (added.declaredFunction? (String.ofList part)).or
        (vocabulary.declaredFunction? (String.ofList part)) := List.find?_append
  rw [function?, declared, none, Option.none_or, function?]

theorem extendedBy_word? (absent : added.IsAbsentFrom text) (inside : part <:+: text.toList) :
    (vocabulary.extendedBy added).word? (String.ofList part) =
      vocabulary.word? (String.ofList part) := by
  have notAdded : String.ofList part ∉ added.names := by
    intro declared
    refine absent.names _ declared ?_
    rwa [String.toList_ofList]
  have names : (vocabulary.extendedBy added).names.contains (String.ofList part) =
      vocabulary.names.contains (String.ofList part) := by
    simp [extendedBy, notAdded]
  rw [word?, names, extendedBy_function? absent inside, word?]

theorem extendedBy_operator? (absent : added.IsAbsentFrom text) (expected : Bool)
    (inside : part <:+: text.toList) :
    (vocabulary.extendedBy added).operator? expected (String.ofList part) =
      vocabulary.operator? expected (String.ofList part) := by
  have none : added.declaredOperator? (String.ofList part) = none := by
    refine List.find?_eq_none.mpr fun operator declared same => absent.operators operator declared ?_
    rwa [beq_iff_eq.mp same, String.toList_ofList]
  have declared : (vocabulary.extendedBy added).declaredOperator? (String.ofList part) =
      (added.declaredOperator? (String.ofList part)).or
        (vocabulary.declaredOperator? (String.ofList part)) := List.find?_append
  rw [operator?, declared, none, Option.none_or, operator?]

theorem extendedBy_agreesOn (absent : added.IsAbsentFrom text) :
    (vocabulary.extendedBy added).lexicon.AgreesOn vocabulary.lexicon text.toList where
  word _ inside := extendedBy_word? absent inside
  operator expected _ inside := extendedBy_operator? absent expected inside

end Vocabulary

/-- Declarations whose names and symbols do not occur in a text change nothing about its RPN, nor
about the error if it has none. -/
theorem Rpn.ofText_extendedBy {vocabulary added : Vocabulary} {text : String}
    (absent : added.IsAbsentFrom text) (juxtaposition : Bool) :
    ofText (vocabulary.extendedBy added).lexicon juxtaposition text =
      ofText vocabulary.lexicon juxtaposition text :=
  ofText_eq_of_agreesOn (Vocabulary.extendedBy_agreesOn absent) juxtaposition

/-- None of the added words and symbols is a part of `2xy - f(x)!`, though some begin like a part of it
or go on after one. -/
theorem Rpn.ofText_extendedBy_of_difference :
    let vocabulary : Vocabulary :=
      { names := ["x", "y"], functions := [⟨"f", 1⟩], operators := [⟨"!", 1, true, 10001⟩] }
    let added : Vocabulary :=
      { names := ["xyz", "yx", "fx"], functions := [⟨"xf", 2⟩, ⟨"sin", 3⟩]
        operators := [⟨"-!", 1, false, 100⟩, ⟨"*", 2, false, 1⟩] }
    added.IsAbsentFrom "2xy - f(x)!" ∧
      ofText (vocabulary.extendedBy added).lexicon true "2xy - f(x)!" =
        ofText vocabulary.lexicon true "2xy - f(x)!" ∧
      ofText vocabulary.lexicon true "2xy - f(x)!" =
        .ok [.number 2, .var "x", .operator .times, .var "y", .operator .times, .var "x",
          .function ⟨"f", 1⟩, .operator ⟨"!", 1, true, 10001⟩, .operator ⟨"-", 2, true, 500⟩] := by
  intro vocabulary added
  have absent : added.IsAbsentFrom "2xy - f(x)!" :=
    ⟨by decide +kernel, by decide +kernel, by decide +kernel⟩
  exact ⟨absent, ofText_extendedBy absent true, by decide +kernel⟩

end Formula
