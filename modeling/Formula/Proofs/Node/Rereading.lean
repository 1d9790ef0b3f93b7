import Mathlib
import Formula.Node.Text
import Formula.Proofs.Node.DualValue
import Formula.Proofs.Scalar.Integer

namespace Formula

/-! The expression that the text of an expression writes.

A text has no signs inside numbers and groups sums and products to the left wherever it has no
parentheses. `reread` makes both explicit. That changes neither the text nor the exact value, and
what results is legible: its text has a part for each part of it.
-/

def Arithmetic.strength : Arithmetic → Nat
  | .add | .sub => 1
  | .mul | .div => 2

open Numeral

namespace Node

section

variable {α : Type}

def constants : Node α → List α
  | constant value => [value]
  | var _ => []
  | negation operand | call _ operand => operand.constants
  | binary _ left right | power left right => left.constants ++ right.constants

/-- Whether every variable of the expression has one of the names and every exponent is a constant.
-/
def isOver (names : List String) : Node α → Bool
  | constant _ => true
  | var name => names.contains name
  | negation operand | call _ operand => operand.isOver names
  | binary _ left right => left.isOver names && right.isOver names
  | power base exponent => base.isOver names && exponent.asConstant.isSome

variable [Numeral α]

theorem strength_binary (operation : Arithmetic) (left right : Node α) :
    (binary operation left right).strength = operation.strength := by
  cases operation <;> rfl

theorem strength_constant (value : α) :
    (constant value).strength = if Numeral.isBelowZero value then 3 else 5 := rfl

theorem exists_binary_of_strength {operation : Arithmetic} {tree : Node α}
    (same : tree.strength = operation.strength) :
    ∃ next first second, tree = binary next first second := by
  have low : tree.strength ≤ 2 := by
    rw [same]
    cases operation <;> decide
  cases tree with
  | binary next first second => exact ⟨next, first, second, rfl⟩
  | constant value =>
      rw [strength_constant] at low
      split at low <;> omega
  | _ => simp [strength] at low

/-- Put an operand before another one, which leaves it to its own first operand if both operations
hold together equally. -/
def prepend (operation : Arithmetic) (left : Node α) : Node α → Node α
  | binary next first second =>
      if next.strength = operation.strength then binary next (prepend operation left first) second
      else binary operation left (binary next first second)
  | right => binary operation left right

omit [Numeral α] in
theorem constants_prepend (operation : Arithmetic) (left right : Node α) :
    (prepend operation left right).constants = left.constants ++ right.constants := by
  induction right with
  | binary next first second ih _ =>
      simp only [prepend]
      split
      case isTrue => simp only [constants, ih, List.append_assoc]
      case isFalse => rfl
  | _ => rfl

@[simp]
theorem strength_prepend (operation : Arithmetic) (left right : Node α) :
    (prepend operation left right).strength = operation.strength := by
  cases right with
  | binary next first second =>
      simp only [prepend]
      split
      case isTrue same => rw [strength_binary, same]
      case isFalse => rw [strength_binary]
  | _ => exact strength_binary operation left _

/-- Without parentheses around the right operand the text is the same. -/
theorem text_prepend {operation : Arithmetic} (associates : groupsRight operation = false)
    (left right : Node α) :
    (prepend operation left right).text = (binary operation left right).text := by
  induction right with
  | binary next first second ih _ =>
      simp only [prepend]
      split
      case isTrue same =>
        simp only [text, strength_binary, strength_prepend, same, associates, lt_self_iff_false,
          decide_false, Bool.false_and, Bool.or_false, grouped, Bool.false_eq_true, ↓reduceIte,
          ih, String.append_assoc]
      case isFalse => rfl
  | _ => rfl

variable [LawfulNumeral α]

/-- Expressions over some names in which no constant has a sign, exponents apart, and no right
operand could be grouped to the left. -/
inductive Spellable (names : List String) : Node α → Prop
  | constant {value : α} (printable : Printable value) (unsigned : isBelowZero value = false) :
      Spellable names (.constant value)
  | var {name : String} (declared : name ∈ names) : Spellable names (.var name)
  | negation {operand : Node α} (inner : Spellable names operand) :
      Spellable names (.negation operand)
  | call {function : Elementary} {operand : Node α} (inner : Spellable names operand) :
      Spellable names (.call function operand)
  | binary {operation : Arithmetic} {left right : Node α} (first : Spellable names left)
      (second : Spellable names right)
      (apart : right.strength = operation.strength → groupsRight operation = true) :
      Spellable names (.binary operation left right)
  | power {base : Node α} {exponent : α} (inner : Spellable names base)
      (printable : Printable exponent) : Spellable names (.power base (.constant exponent))

theorem Spellable.prepend {names : List String} {operation : Arithmetic} {left right : Node α}
    (first : Spellable names left) (second : Spellable names right) :
    Spellable names (prepend operation left right) := by
  induction right with
  | binary next inner last innerIH _ =>
      cases second with
      | binary innerSpellable lastSpellable apart =>
          simp only [Node.prepend]
          split
          case isTrue same => exact .binary (innerIH innerSpellable) lastSpellable apart
          case isFalse different =>
            refine .binary first (.binary innerSpellable lastSpellable apart) fun same => ?_
            rw [strength_binary] at same
            contradiction
  | _ =>
      refine .binary first second fun same => ?_
      obtain ⟨_, _, _, isBinary⟩ := exists_binary_of_strength same
      contradiction

/-- The expression that the text writes. -/
def reread : Node α → Node α
  | constant value =>
      if isBelowZero value then negation (constant (magnitude value))
      else constant (magnitude value)
  | var name => var name
  | negation operand => negation operand.reread
  | call function operand => call function operand.reread
  | binary operation left right =>
      if groupsRight operation then binary operation left.reread right.reread
      else prepend operation left.reread right.reread
  | power base exponent =>
      power base.reread
        (match exponent with
        | constant value => constant (shown value)
        | other => other)

@[simp]
theorem strength_reread (tree : Node α) : tree.reread.strength = tree.strength := by
  cases tree with
  | constant value =>
      simp only [reread, strength_constant]
      split
      · rfl
      · simp [strength_constant]
  | binary operation left right =>
      simp only [reread]
      split
      · rw [strength_binary, strength_binary]
      · rw [strength_prepend, strength_binary]
  | _ => rfl

theorem text_reread (tree : Node α) : tree.reread.text = tree.text := by
  induction tree with
  | constant value =>
      simp only [reread]
      split
      case isTrue below =>
        rw [text, text, text, constantText_of_isBelowZero below]
        simp [grouped, strength_constant]
      case isFalse notBelow =>
        rw [text, text, constantText_magnitude (Bool.eq_false_iff.mpr notBelow)]
  | var name => rfl
  | negation operand ih => simp only [reread, text, strength_reread, ih]
  | call function operand ih => simp only [reread, text, ih]
  | binary operation left right leftIH rightIH =>
      have same : (binary operation left.reread right.reread).text =
          (binary operation left right).text := by
        simp only [text, strength_binary, strength_reread, leftIH, rightIH]
      simp only [reread]
      split
      · exact same
      case isFalse associates => rw [text_prepend (Bool.eq_false_iff.mpr associates), same]
  | power base exponent baseIH _ =>
      cases exponent with
      | constant value =>
          have same : (constant (shown value)).strength = (constant value).strength := by
            rw [strength_constant, strength_constant, isBelowZero_shown]
          simp only [reread, text, strength_reread, baseIH, same, constantText_shown]
      | _ => simp only [reread, text, strength_reread, baseIH]

/-- Numbers without a sign are made of positive numbers by negation, and of those exponents that
have no sign to lose. -/
theorem spellable_reread {names : List String} {tree : Node α} (known : tree.isOver names = true)
    (finite : ∀ value ∈ tree.constants, isFinite value = true) : Spellable names tree.reread := by
  induction tree with
  | constant value =>
      have positive : Spellable names (constant (magnitude value)) :=
        .constant (printable_magnitude (finite value (by simp [constants])))
          (isBelowZero_magnitude value)
      simp only [reread]
      split
      · exact .negation positive
      · exact positive
  | var name => exact .var (List.contains_iff_mem.mp known)
  | negation operand ih => exact .negation (ih known finite)
  | call function operand ih => exact .call (ih known finite)
  | binary operation left right leftIH rightIH =>
      simp only [isOver, Bool.and_eq_true] at known
      simp only [constants, List.forall_mem_append] at finite
      have first := leftIH known.1 finite.1
      have second := rightIH known.2 finite.2
      simp only [reread]
      split
      case isTrue groups => exact .binary first second fun _ => groups
      case isFalse => exact first.prepend second
  | power base exponent baseIH _ =>
      simp only [isOver, Bool.and_eq_true] at known
      simp only [constants, List.forall_mem_append] at finite
      have inner := baseIH known.1 finite.1
      cases exponent with
      | constant value => exact .power inner (printable_shown (finite.2 value (by simp [constants])))
      | _ => simp [asConstant] at known

/-- Only signs are lost. -/
theorem constants_reread (tree : Node α) :
    tree.reread.constants.map magnitude = tree.constants.map magnitude := by
  induction tree with
  | constant value =>
      simp only [reread]
      split <;> simp [constants]
  | var name => rfl
  | negation operand ih => exact ih
  | call function operand ih => exact ih
  | binary operation left right leftIH rightIH =>
      simp only [reread]
      split
      · simp only [constants, List.map_append, leftIH, rightIH]
      · simp only [constants_prepend, constants, List.map_append, leftIH, rightIH]
  | power base exponent baseIH _ =>
      cases exponent <;> simp [reread, constants, baseIH]

theorem forall_magnitude_reread {tree : Node α} (holds : α → Prop) :
    (∀ value ∈ tree.reread.constants, holds (magnitude value)) ↔
      ∀ value ∈ tree.constants, holds (magnitude value) := by
  rw [← List.forall_mem_map, constants_reread, List.forall_mem_map]

/-- Taken as literals, the digits of every constant give the constant. -/
def LiteralsReadBack (tree : Node α) : Prop :=
  ∀ value ∈ tree.constants, LiteralReadsBack (magnitude value)

/-- What the text spells, and what its digits give again. -/
structure Legible (names : List String) (tree : Node α) : Prop where
  spellable : Spellable names tree
  reads : tree.LiteralsReadBack

end

section

variable {K : Type} [ExactField K]

/-- The number as an element of a field. -/
def exactIn (K : Type) [ExactField K] (number : Float) : K := (exact number : ℚ)

variable [DecidableEq K] {assignment : Assignment K}

theorem arithmetic_prepend {operation next : Arithmetic} (same : next.strength = operation.strength)
    (associates : groupsRight operation = false) (left first second : K) :
    Scalar.arithmetic next (Scalar.arithmetic operation left first) second =
      Scalar.arithmetic operation left (Scalar.arithmetic next first second) := by
  cases operation with
  | add =>
      cases next with
      | add => exact add_assoc left first second
      | sub => exact add_sub_assoc left first second
      | mul | div => contradiction
  | mul =>
      cases next with
      | mul => exact mul_assoc left first second
      | div => exact mul_div_assoc left first second
      | add | sub => contradiction
  | sub | div => contradiction

theorem value_prepend {operation : Arithmetic} (associates : groupsRight operation = false)
    (convert : Float → K) (left right : Node Float) :
    ((prepend operation left right).map convert).value assignment =
      ((binary operation left right).map convert).value assignment := by
  induction right with
  | binary next first second ih _ =>
      simp only [prepend]
      split
      case isTrue same =>
        simp only [map, value] at ih ⊢
        rw [ih, arithmetic_prepend same associates]
      case isFalse => rfl
  | _ => rfl

/-- In exact arithmetic the text writes the value of the expression. -/
theorem value_reread (tree : Node Float) :
    (tree.reread.map (exactIn K)).value assignment = (tree.map (exactIn K)).value assignment := by
  induction tree with
  | constant value =>
      simp only [reread]
      split
      case isTrue below =>
        simp only [map, Node.value, exactIn, exact_of_isBelowZero below, Rat.cast_neg]
      case isFalse notBelow =>
        simp only [map, Node.value, exactIn, exact_magnitude (Bool.eq_false_iff.mpr notBelow)]
  | var name => rfl
  | negation operand ih => simp only [reread, map, value, ih]
  | call function operand ih => simp only [reread, map, value, ih]
  | binary operation left right leftIH rightIH =>
      have same : ((binary operation left.reread right.reread).map (exactIn K)).value assignment =
          ((binary operation left right).map (exactIn K)).value assignment := by
        simp only [map, value, leftIH, rightIH]
      simp only [reread]
      split
      · exact same
      case isFalse associates =>
        rw [value_prepend (Bool.eq_false_iff.mpr associates), same]
  | power base exponent baseIH _ =>
      cases exponent with
      | constant value => simp only [reread, map, Node.value, exactIn, baseIH, exact_shown]
      | _ => simp only [reread, map, value, baseIH]

end

/-- A text of finite double-precision numbers is legible if their plain texts read back. -/
theorem legible_reread {names : List String} {tree : Node Float}
    (known : tree.isOver names = true) (finite : ∀ value ∈ tree.constants, value.isFinite = true)
    (readable : ∀ value ∈ tree.constants, PlainReadsBack value.abs) : Legible names tree.reread :=
  ⟨spellable_reread known finite, (forall_magnitude_reread LiteralReadsBack).mpr fun value member =>
    (readable value member).literalReadsBack
      ((isFinite_magnitude value).trans (finite value member)) (magnitude_magnitude value)⟩

end Node

end Formula
