import Mathlib
import Formula.Proofs.Compiler.Literals
import Formula.Proofs.Compiler.RoundTrip

namespace Formula

open Character Numeral

/-! That the text of a compiled expression compiles to an expression of the same text.

The variables of a compiled expression were read as words, so they are read as words again. What its
constants are written with is read in double precision; a scalar type of less precision takes it only
if it is the constant to the last bit, which the shortest digits of a constant need not be.
-/

namespace Lexicon

variable {lexicon : Lexicon} {vocabulary : Vocabulary} {before : Option Token} {start length : Nat}
variable {first : Char} {rest : List Char}

theorem isWordStart_of_lexeme {name : String}
    (read : lexicon.lexeme before start first rest = .ok (.var name, length)) :
    isWordStart first = true := by
  unfold lexeme at read
  split at read
  · obtain ⟨_, _, same, _⟩ := number_cases read
    contradiction
  split at read
  · cases read
  split at read
  · cases read
  split at read
  · cases read
  split at read
  case isTrue starts => exact starts
  split at read
  · obtain ⟨_, _, same⟩ := symbol_cases read
    contradiction
  · contradiction

/-- A name is read from one word. -/
theorem isIdentifier_of_lexeme {name : String}
    (read : vocabulary.lexicon.lexeme before start first rest = .ok (.var name, length)) :
    isIdentifier name = true := by
  have starts := isWordStart_of_lexeme read
  rw [lexeme_of_isWordStart _ _ _ _ starts] at read
  obtain ⟨meaning, known, same, _⟩ := word_cases read
  obtain ⟨positive, _, isKnown, _⟩ := longestKnownUpTo_eq_some known
  have spelled := Vocabulary.text_of_word? isKnown
  rw [← same] at spelled
  have letters : name.toList = ((first :: rest).takeWhile isWordPart).take length := by
    rw [← String.toList_ofList (l := ((first :: rest).takeWhile isWordPart).take length), ← spelled]
    rfl
  obtain ⟨below, rfl⟩ := Nat.exists_eq_add_one_of_ne_zero (Nat.ne_of_gt positive)
  rw [List.takeWhile_cons_of_pos (isWordPart_of_isWordStart starts), List.take_succ_cons] at letters
  rw [isIdentifier, letters]
  refine Bool.and_eq_true_iff.mpr ⟨starts, List.all_eq_true.mpr fun character member => ?_⟩
  exact List.all_eq_true.mp List.all_takeWhile character (List.mem_of_mem_take member)

theorem isIdentifier_of_mem_tokens {text : String} {tokens : List Located} {name : String}
    (lexed : vocabulary.lexicon.tokens text = .ok tokens)
    (member : .var name ∈ tokens.map Located.token) : isIdentifier name = true := by
  obtain ⟨_, _, _, _, _, read⟩ := lexeme_of_mem_scan lexed member
  exact isIdentifier_of_lexeme read

end Lexicon

theorem Expression.collision?_of_rpn {expression : Expression} {rpn : List Token}
    (ordered : expression.rpn = .ok rpn) : expression.collision? = none := by
  refine Option.eq_none_iff_forall_ne_some.mpr fun name reported => ?_
  rw [rpn_eq_nameCollision_iff.mpr reported] at ordered
  contradiction

namespace Node

variable {α : Type} [Numeral α] [LawfulNumeral α] {names : List String} {tree : Node α}

theorem mem_postorder_constant {value : α} (printable : Printable value) :
    .number (reading (magnitude value)) ∈ (constant value).phrase.tree.postorder := by
  cases below : isBelowZero value with
  | true => simp [phrase, below, Phrase.signed, Phrase.ofToken]
  | false => simp [phrase, below, Phrase.ofToken, printable.magnitude_eq below]

/-- What the digits of a constant are read as is in the RPN of the text. -/
theorem Spellable.mem_postorder (spellable : Spellable names tree) :
    ∀ value ∈ tree.constants, .number (reading (magnitude value)) ∈ tree.phrase.tree.postorder := by
  induction spellable with
  | @constant value printable unsigned =>
      exact List.forall_mem_singleton.mpr (mem_postorder_constant printable)
  | var declared => simp [constants]
  | negation inner ih =>
      intro value member
      simp [phrase, Phrase.signed, ih value member]
  | call inner ih =>
      intro value member
      simp [phrase, Phrase.call, ih value member]
  | binary first second apart firstIH secondIH =>
      refine List.forall_mem_append.mpr ⟨fun value member => ?_, fun value member => ?_⟩
      · simp [phrase, Phrase.joined, firstIH value member]
      · simp [phrase, Phrase.joined, secondIH value member]
  | @power base exponent inner printable ih =>
      refine List.forall_mem_append.mpr
        ⟨fun value member => ?_, List.forall_mem_singleton.mpr ?_⟩
      · simp [phrase, Phrase.joined, ih value member]
      · have present := mem_postorder_constant printable
        rw [phrase]
        simp [Phrase.joined, present]

end Node

namespace Compiler

section

variable {α : Type} [Numeral α] {bindings : List (Variable α)} {source : String} {tree : Node α}

/-- A compiled expression has variables whose names are words, and no name has two meanings. -/
theorem isOver_words_of_compile
    (compiled : ({ bindings } : Compiler α).compile source = .ok tree) :
    tree.isOver ((bindings.map (·.name)).filter isIdentifier) = true ∧
      Expression.collision? ⟨source, ({ bindings } : Compiler α).vocabulary, true⟩ = none := by
  obtain ⟨expression, rpn, made, ordered, built⟩ := exists_rpn_of_compile compiled
  have accepted := expression.ofText_of_rpn ordered
  obtain ⟨tokens, lexed, origins⟩ := Rpn.mem_of_ofText accepted
  refine ⟨isOver_of_build rfl made ordered built fun name declared member => ?_, ?_⟩
  · have isRead := (origins _ member).2.resolve_right (by simp)
    exact List.mem_filter.mpr ⟨declared, Lexicon.isIdentifier_of_mem_tokens lexed isRead⟩
  · obtain rfl := eq_of_expression made
    exact Expression.collision?_of_rpn ordered

variable [LawfulNumeral α]

/-- A text compiles only if the scalar type takes the digits of every constant. -/
theorem isLiteral_of_compile_text {words : List String}
    (apart : Expression.collision? ⟨source, ({ bindings } : Compiler α).vocabulary, true⟩ = none)
    (declared : ∀ name ∈ words, name ∈ bindings.map (·.name))
    (identifiers : ∀ name ∈ words, isIdentifier name = true) (spellable : tree.Spellable words)
    (finite : ∀ value ∈ tree.constants, isFinite (magnitude value) = true) {again : Node α}
    (compiled : ({ bindings } : Compiler α).compile tree.text = .ok again) :
    ∀ value ∈ tree.constants, IsLiteral (magnitude value) := by
  intro value member
  obtain ⟨made, ordered⟩ := rpn_text_of_words apart declared identifiers spellable
  rw [compile_eq_build made, ordered] at compiled
  obtain ⟨_, begins⟩ :=
    Assembler.exists_beginning_of_build compiled _ (spellable.mem_postorder value member)
  rw [isLiteral_iff (finite value member) (isBelowZero_magnitude value), ofLiteral?,
    if_pos (Assembler.eq_of_beginning_number begins).2]
  rfl

end

variable {bindings : List (Variable Float32)} {source : String} {tree : Node Float32}

/-- In single precision, the text of a compiled expression with finite constants compiles under the
same variables, to an expression of the same text, if the digits of each constant, read as a literal,
are the constant. If it compiles at all, they are some number of single precision. -/
theorem compile_text_in_single_precision
    (compiled : ({ bindings } : Compiler Float32).compile source = .ok tree)
    (finite : ∀ value ∈ tree.constants, value.isFinite = true) :
    ((∀ value ∈ tree.constants, LiteralReadsBack value.abs) →
      ∃ again, ({ bindings } : Compiler Float32).compile tree.text = .ok again ∧
        again.text = tree.text) ∧
    ((∃ again, ({ bindings } : Compiler Float32).compile tree.text = .ok again) →
      ∀ value ∈ tree.constants, IsLiteral value.abs) := by
  obtain ⟨known, apart⟩ := isOver_words_of_compile compiled
  have spellable := Node.spellable_reread known finite
  have declared : ∀ name ∈ (bindings.map (·.name)).filter isIdentifier,
      name ∈ bindings.map (·.name) := fun name member => (List.mem_filter.mp member).1
  have identifiers : ∀ name ∈ (bindings.map (·.name)).filter isIdentifier,
      isIdentifier name = true := fun name member => (List.mem_filter.mp member).2
  -- The text is also that of the reread expression, whose constants differ in signs only.
  rw [← tree.text_reread]
  refine ⟨fun readable => ⟨tree.reread, ?_, rfl⟩, fun ⟨again, compiles⟩ => ?_⟩
  · have reads := (Node.forall_magnitude_reread LiteralReadsBack).mpr readable
    exact compile_text_of_words apart declared identifiers ⟨spellable, reads⟩
  · have magnitudes := (Node.forall_magnitude_reread (isFinite · = true)).mpr fun value member =>
      (isFinite_magnitude value).trans (finite value member)
    exact (Node.forall_magnitude_reread IsLiteral).mp
      (isLiteral_of_compile_text apart declared identifiers spellable magnitudes compiles)

/-- The exponents are worked out; a name that is no word has no effect. -/
theorem compile_text_in_single_precision_of_powers :
    let bindings : List (Variable Float32) := [⟨"x", 2⟩, ⟨"x y", 3⟩]
    let tree : Node Float32 := .binary .add (.binary .sub (.power (.var "x") (.constant 0.25))
      (.binary .mul (.constant 2.5) (.var "x"))) (.power (.var "x") (.constant (-3)))
    (∀ value ∈ tree.constants, LiteralReadsBack value.abs) ∧
      tree.text = "x^0.25 - 2.5 * x + x^(-3)" ∧
      ∃ again, ({ bindings } : Compiler Float32).compile tree.text = .ok again ∧
        again.text = tree.text := by
  intro bindings tree
  have compiled : ({ bindings } : Compiler Float32).compile "x^(1/4) - 2.5x + x^-(1+2)" = .ok tree := by
    decide +kernel
  have readable : ∀ value ∈ tree.constants, LiteralReadsBack value.abs := by decide +kernel
  exact ⟨readable, by decide +kernel,
    (compile_text_in_single_precision compiled (by decide +kernel)).1 readable⟩

/-- What `pi` compiles to is written as `3.1415927`, which is not the constant to the last bit. -/
theorem compile_text_of_pi_in_single_precision :
    let compiler : Compiler Float32 := {}
    let tree : Node Float32 := .constant Numeral.pi
    compiler.compile "pi" = .ok tree ∧ (∀ value ∈ tree.constants, value.isFinite = true) ∧
      tree.text = "3.1415927" ∧
      compiler.compile tree.text = .error (.unrepresentable 3.1415927) := by
  decide +kernel

end Compiler

end Formula
