import Formula.Proofs.Assembly.StackMachine
import Formula.Proofs.Node.Rereading
import Formula.Proofs.Rpn.Acceptance
import Formula.Proofs.Token.Spelling
import Formula.Compiler

namespace Formula

open Numeral

/-! Expressions as phrases.

An expression that can be spelled has a phrase of its own shape. Its text spells the tokens of the phrase, its
parentheses stand where the levels of the operators ask for them, and the stack machine makes the
expression again from the postorder.
-/

namespace Operator

/-- The sign of numbers below zero and of negations. -/
def minus : Operator := ⟨"-", 1, false, 5000⟩

def caret : Operator := ⟨"^", 2, false, 10000⟩

theorem minus_mem_builtins : minus ∈ builtins := by decide

theorem caret_mem_builtins : caret ∈ builtins := by decide

@[simp] theorem symbol_minus : minus.symbol = "-" := rfl

@[simp] theorem symbol_caret : caret.symbol = "^" := rfl

@[simp] theorem level_minus : minus.level = 3 := by decide

@[simp] theorem level_caret : caret.level = 4 := by decide

end Operator

namespace Arithmetic

/-- The operator that writes the operation. -/
def operator : Arithmetic → Operator
  | .add => ⟨"+", 2, true, 500⟩
  | .sub => ⟨"-", 2, true, 500⟩
  | .mul => .times
  | .div => ⟨"/", 2, true, 1000⟩

theorem operator_mem_builtins (operation : Arithmetic) : operation.operator ∈ Operator.builtins := by
  cases operation <;> decide

@[simp] theorem symbol_operator (operation : Arithmetic) :
    operation.operator.symbol = operation.symbol := by
  cases operation <;> rfl

@[simp] theorem operands_operator (operation : Arithmetic) : operation.operator.operands = 2 := by
  cases operation <;> rfl

theorem isPrefix_operator (operation : Arithmetic) : operation.operator.isPrefix = false := by
  cases operation <;> rfl

theorem level_operator (operation : Arithmetic) :
    operation.operator.level = operation.strength := by
  cases operation <;> decide

theorem symbol_ne_caret (operation : Arithmetic) : operation.symbol ≠ "^" := by
  cases operation <;> decide

end Arithmetic

/-- The names, the elementary functions and the built-in operators mean themselves. -/
structure Lexicon.Covers (lexicon : Lexicon) (names : List String) : Prop where
  operators : lexicon.HasBuiltinOperators
  identifier : ∀ name ∈ names, isIdentifier name = true
  name : ∀ name ∈ names, lexicon.word? name = some (.name name)
  function : ∀ function : Elementary,
    lexicon.word? function.name = some (.function ⟨function.name, 1⟩)

theorem isIdentifier_name (function : Elementary) : isIdentifier function.name = true := by
  cases function <;> decide

namespace Phrase

def group (inner : Phrase) : Phrase :=
  ⟨none, inner.tree, .openParen :: inner.text ++ [.closeParen]⟩

def groupedIf (needed : Bool) (phrase : Phrase) : Phrase := if needed then phrase.group else phrase

def ofToken (token : Token) : Phrase := ⟨none, .node token [], [token]⟩

def call (function : FunctionSymbol) (argument : Phrase) : Phrase :=
  ⟨none, .node (.function function) [argument.tree],
    .function function :: .openParen :: argument.text ++ [.closeParen]⟩

def signed (sign : Operator) (operand : Phrase) : Phrase :=
  ⟨some sign, .node (.operator sign) [operand.tree], .operator sign :: operand.text⟩

def joined (operator : Operator) (left right : Phrase) : Phrase :=
  ⟨some operator, .node (.operator operator) [left.tree, right.tree],
    left.text ++ .operator operator :: right.text⟩

@[simp] theorem tree_groupedIf (needed : Bool) (phrase : Phrase) :
    (groupedIf needed phrase).tree = phrase.tree := by
  cases needed <;> rfl

theorem Written.groupedIf {phrase : Phrase} (written : phrase.Written) (needed : Bool) :
    (groupedIf needed phrase).Written := by
  cases needed with
  | false => exact written
  | true => exact .group written

/-- What stands outside all parentheses was there before and is not grouped. -/
theorem outer_groupedIf {needed : Bool} {phrase : Phrase} {inner : Operator}
    (outside : inner ∈ (groupedIf needed phrase).outer) : needed = false ∧ inner ∈ phrase.outer := by
  cases needed with
  | false => exact ⟨rfl, outside⟩
  | true => contradiction

end Phrase

namespace Node

open Phrase Operator

variable {α : Type} [Numeral α] [LawfulNumeral α]

/-- The phrase of an expression, with the parentheses of its text. -/
def phrase : Node α → Phrase
  | constant value =>
      if isBelowZero value then .signed minus (.ofToken (.number (reading (magnitude value))))
      else .ofToken (.number (reading value))
  | var name => .ofToken (.var name)
  | negation operand => .signed minus (operand.phrase.groupedIf (decide (operand.strength ≤ 3)))
  | call function operand => .call ⟨function.name, 1⟩ operand.phrase
  | binary operation left right =>
      .joined operation.operator
        (left.phrase.groupedIf (decide (left.strength < operation.strength)))
        (right.phrase.groupedIf (decide (right.strength < operation.strength) ||
          (groupsRight operation && right.strength == operation.strength)))
  | power base exponent =>
      .joined caret (base.phrase.groupedIf (decide (base.strength ≤ 4)))
        (exponent.phrase.groupedIf (decide (exponent.strength < 4)))

/-- The operator outside all parentheses binds as strongly as the expression holds together. -/
theorem level_of_outer (tree : Node α) :
    ∀ inner ∈ tree.phrase.outer, inner.level = tree.strength := by
  intro inner outside
  cases tree with
  | constant value =>
      simp only [phrase] at outside
      split at outside
      case isTrue below =>
        cases outside
        simp only [strength_constant, below, ↓reduceIte, level_minus]
      case isFalse => contradiction
  | negation operand =>
      cases outside
      exact level_minus
  | binary operation left right =>
      cases outside
      rw [strength_binary, Arithmetic.level_operator]
  | power base exponent =>
      cases outside
      exact level_caret
  | var name => contradiction
  | call function operand => contradiction

variable {names : List String} {tree : Node α}

theorem written_phrase_constant (value : α) : (constant value).phrase.Written := by
  simp only [phrase]
  split
  · exact .signed (by decide) rfl (.number _) fun _ outside => by contradiction
  · exact .number _

theorem Spellable.written (spellable : Spellable names tree) : tree.phrase.Written := by
  induction spellable with
  | @constant value printable unsigned => exact written_phrase_constant value
  | @var name declared => exact .var name
  | @negation operand inner ih =>
      refine .signed (by decide) rfl (ih.groupedIf _) fun other outside => ?_
      obtain ⟨ungrouped, isOuter⟩ := outer_groupedIf outside
      have strong := level_of_outer operand other isOuter
      simp only [decide_eq_false_iff_not] at ungrouped
      rw [StandsUnder, strong, level_minus]
      omega
  | @call function operand inner ih =>
      exact @Written.call ⟨function.name, 1⟩ [operand.phrase] rfl (by simpa using ih)
  | @binary operation left right first second apart firstIH secondIH =>
      refine .binary operation.operator_mem_builtins operation.operands_operator
        (firstIH.groupedIf _) (secondIH.groupedIf _) (fun other outside => ?_) fun other outside => ?_
      · obtain ⟨ungrouped, isOuter⟩ := outer_groupedIf outside
        have strong := level_of_outer left other isOuter
        simp only [decide_eq_false_iff_not] at ungrouped
        rw [StandsBefore, strong, operation.level_operator, operation.symbol_operator]
        exact (Nat.lt_or_eq_of_le (Nat.not_lt.mp ungrouped)).imp_right (⟨·, operation.symbol_ne_caret⟩)
      · obtain ⟨ungrouped, isOuter⟩ := outer_groupedIf outside
        have strong := level_of_outer right other isOuter
        obtain ⟨strongEnough, together⟩ := Bool.or_eq_false_iff.mp ungrouped
        rw [decide_eq_false_iff_not] at strongEnough
        -- A right operand of the same strength would have its parentheses.
        have different : right.strength ≠ operation.strength := by
          intro same
          simp [apart same, same] at together
        rw [StandsAfter, strong, operation.level_operator]
        omega
  | @power base exponent inner printable ih =>
      refine .binary (by decide) rfl (ih.groupedIf _) ((written_phrase_constant exponent).groupedIf _)
        (fun other outside => ?_) fun other outside => ?_
      · obtain ⟨ungrouped, isOuter⟩ := outer_groupedIf outside
        have strong := level_of_outer base other isOuter
        simp only [decide_eq_false_iff_not] at ungrouped
        rw [StandsBefore, strong, level_caret]
        omega
      · obtain ⟨ungrouped, isOuter⟩ := outer_groupedIf outside
        have strong := level_of_outer (Node.constant exponent) other isOuter
        simp only [decide_eq_false_iff_not] at ungrouped
        rw [StandsAfter, strong, level_caret]
        exact .inr ((Nat.lt_or_eq_of_le (Nat.not_lt.mp ungrouped)).imp_right (⟨·, rfl⟩))

section

variable {lexicon : Lexicon}

theorem spells_groupedIf {text : String} {phrase : Phrase}
    (spells : lexicon.Spells text phrase.text) (needed : Bool) :
    lexicon.Spells (grouped needed text) (phrase.groupedIf needed).text := by
  cases needed with
  | false => exact spells
  | true => exact spells.group

theorem spells_constant (covers : lexicon.Covers names) {value : α}
    (finite : isFinite value = true) :
    lexicon.Spells (constantText value) (constant value).phrase.text := by
  simp only [phrase]
  split
  case isTrue below =>
    rw [← isFinite_magnitude] at finite
    have signed := Lexicon.Spells.signed covers.operators minus_mem_builtins rfl
      (.number finite (isBelowZero_magnitude value))
      (Lexicon.beginsApart_constantText finite (isBelowZero_magnitude value))
    rwa [constantText_of_isBelowZero below, ← symbol_minus]
  case isFalse notBelow => exact .number finite (Bool.eq_false_iff.mpr notBelow)

/-- What holds together more strongly than a sign begins with no operator. -/
theorem Spellable.beginsApart (covers : lexicon.Covers names) (spellable : Spellable names tree)
    (strong : 3 < tree.strength) : Lexicon.BeginsApart tree.text := by
  induction spellable with
  | constant printable unsigned => exact Lexicon.beginsApart_constantText printable.finite unsigned
  | var declared => exact Lexicon.beginsApart_of_isIdentifier (covers.identifier _ declared)
  | negation inner ih => simp [strength] at strong
  | @call function operand inner ih =>
      have begins := Lexicon.beginsApart_of_isIdentifier (isIdentifier_name function)
      exact ((begins.append "(").append operand.text).append ")"
  | @binary operation left right first second apart firstIH secondIH =>
      rw [strength_binary] at strong
      cases operation <;> exact absurd strong (by decide)
  | @power base exponent inner printable ih =>
      have begins : Lexicon.BeginsApart (grouped (decide (base.strength ≤ 4)) base.text) := by
        by_cases weak : base.strength ≤ 4
        · rw [decide_eq_true weak]
          exact Lexicon.beginsApart_group base.text
        · rw [decide_eq_false weak]
          exact ih (by omega)
      rw [text]
      exact (begins.append _).append _

theorem Spellable.spells (covers : lexicon.Covers names) (spellable : Spellable names tree) :
    lexicon.Spells tree.text tree.phrase.text := by
  induction spellable with
  | constant printable unsigned => exact spells_constant covers printable.finite
  | @var name declared => exact .name (covers.identifier name declared) (covers.name name declared)
  | @negation operand inner ih =>
      have apart : Lexicon.BeginsApart (grouped (decide (operand.strength ≤ 3)) operand.text) := by
        by_cases weak : operand.strength ≤ 3
        · rw [decide_eq_true weak]
          exact Lexicon.beginsApart_group operand.text
        · rw [decide_eq_false weak]
          exact inner.beginsApart covers (by omega)
      have signed := Lexicon.Spells.signed covers.operators minus_mem_builtins rfl
        (spells_groupedIf ih (decide (operand.strength ≤ 3))) apart
      rwa [symbol_minus] at signed
  | @call function operand inner ih =>
      exact .call (isIdentifier_name function) (covers.function function) ih
  | @binary operation left right first second apart firstIH secondIH =>
      have spaced := Lexicon.Spells.spaced covers.operators operation.operator_mem_builtins
        operation.isPrefix_operator
        (spells_groupedIf firstIH (decide (left.strength < operation.strength)))
        (spells_groupedIf secondIH (decide (right.strength < operation.strength) ||
          (groupsRight operation && right.strength == operation.strength)))
      simpa only [text, strength_binary, operation.symbol_operator, phrase, joined] using spaced
  | @power base exponent inner printable ih =>
      have apart : Lexicon.BeginsApart (grouped (decide ((Node.constant exponent).strength < 4))
          (constantText exponent)) := by
        cases below : isBelowZero exponent with
        | true =>
            have weak : (Node.constant exponent).strength < 4 := by simp [strength_constant, below]
            rw [decide_eq_true weak]
            exact Lexicon.beginsApart_group _
        | false =>
            have strong : ¬ (Node.constant exponent).strength < 4 := by
              simp [strength_constant, below]
            rw [decide_eq_false strong]
            exact Lexicon.beginsApart_constantText printable.finite below
      have joined := Lexicon.Spells.joined covers.operators caret_mem_builtins rfl rfl
        (spells_groupedIf ih (decide (base.strength ≤ 4)))
        (spells_groupedIf (spells_constant covers printable.finite) _) apart
      rwa [symbol_caret] at joined

end

end Node

end Formula
