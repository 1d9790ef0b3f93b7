import Formula.Proofs.Rpn.Decoding
import Formula.Proofs.Rpn.Reading

namespace Formula

/-! Chains: operands with binary operators between them and no parentheses.

A chain divides at its loosest operator, and so do the chains on both sides of it, until operands are
left. Ordering gives out the tree of these divisions: the operator that divides a chain releases all
that waits of what stands before it, and nothing of what stands after it releases the operator.
-/

/-- Binary operators of one precedence group to the same side. -/
def SharesGrouping (table : List Operator) : Prop :=
  ∀ first ∈ table, ∀ second ∈ table, first.operands = 2 → second.operands = 2 →
    first.precedence = second.precedence → first.leftAssociative = second.leftAssociative

namespace Operator

/-- Between those before it and those after it, the operator is the loosest: none has a lower
precedence, and of those that have its own it is the last if it groups to the left, and the first if it
groups to the right. -/
structure IsLoosest (operator : Operator) (before after : List Operator) : Prop where
  lowest : ∀ other ∈ before ++ after, operator.precedence ≤ other.precedence
  last : operator.leftAssociative = true →
    ∀ other ∈ after, operator.precedence ≠ other.precedence
  first : operator.leftAssociative = false →
    ∀ other ∈ before, operator.precedence ≠ other.precedence

theorem releases_iff_of_binary {entering pending : Operator} (binary : entering.operands = 2) :
    entering.releases pending = true ↔
      entering.precedence < pending.precedence ∨
        entering.leftAssociative = true ∧ entering.precedence = pending.precedence := by
  simp [releases, isUnary, binary]

namespace IsLoosest

variable {operator other : Operator} {before after : List Operator}

theorem releases (loosest : operator.IsLoosest before after) (binary : operator.operands = 2)
    (stands : other ∈ before) : operator.releases other = true := by
  rw [releases_iff_of_binary binary]
  have lowest := loosest.lowest other (List.mem_append_left after stands)
  cases groups : operator.leftAssociative with
  | true =>
      simp only [true_and]
      omega
  | false =>
      have apart := loosest.first groups other stands
      exact .inl (by omega)

theorem not_released (loosest : operator.IsLoosest before after) (binary : other.operands = 2)
    (stands : other ∈ after) (shared : operator.precedence = other.precedence →
      operator.leftAssociative = other.leftAssociative) : other.releases operator = false := by
  rw [Bool.eq_false_iff, ne_eq, releases_iff_of_binary binary]
  rintro (lower | ⟨groups, same⟩)
  · have lowest := loosest.lowest other (List.mem_append_right before stands)
    omega
  · exact loosest.last ((shared same.symm).trans groups) other stands same.symm

end IsLoosest

/-- Before operators that share their grouping and have a loosest one, an operator leaves it the
loosest, or is it. -/
theorem IsLoosest.cons {added found : Operator} {before after : List Operator}
    (loosest : found.IsLoosest before after)
    (shared : added.precedence = found.precedence → added.leftAssociative = found.leftAssociative) :
    found.IsLoosest (added :: before) after ∨ added.IsLoosest [] (before ++ found :: after) := by
  by_cases looser : added.precedence < found.precedence ∨
      added.precedence = found.precedence ∧ added.leftAssociative = false
  · right
    have lowest : ∀ other ∈ before ++ found :: after, found.precedence ≤ other.precedence := by
      intro other member
      rcases List.mem_append.mp member with earlier | later
      · exact loosest.lowest other (List.mem_append_left _ earlier)
      rcases List.mem_cons.mp later with rfl | later
      · exact Int.le_refl _
      · exact loosest.lowest other (List.mem_append_right _ later)
    refine ⟨fun other member => ?_, fun groups other member => ?_, fun _ _ none => by simp at none⟩
    · have above := lowest other member
      omega
    · have above := lowest other member
      rcases looser with lower | ⟨_, right⟩
      · omega
      · rw [groups] at right
        contradiction
  · left
    refine ⟨fun other member => ?_, loosest.last, fun right other member => ?_⟩
    · rcases List.mem_cons.mp member with rfl | further
      · omega
      · exact loosest.lowest other further
    · rcases List.mem_cons.mp member with rfl | further
      · intro same
        exact looser (.inr ⟨same.symm, (shared same.symm).trans right⟩)
      · exact loosest.first right other further

end Operator

/-- An operand, and operators each with the operand after it. -/
structure Chain where
  first : Token
  links : List (Operator × Token)

namespace Chain

open Rpn OperatorTree

def operators (chain : Chain) : List Operator := chain.links.map Prod.fst

def operands (chain : Chain) : List Token := chain.first :: chain.links.map Prod.snd

/-- The chain as it is written. -/
def text (chain : Chain) : List Token :=
  chain.first :: chain.links.flatMap fun link => [.operator link.1, link.2]

/-- Dividing the chain at its loosest operator, and so on, gives the tree. -/
inductive DividesInto : Chain → OperatorTree Token → Prop
  | operand (operand : Token) : DividesInto ⟨operand, []⟩ (.node operand [])
  | operator {first next : Token} {operator : Operator} {before after : List (Operator × Token)}
      {left right : OperatorTree Token}
      (loosest : operator.IsLoosest (before.map Prod.fst) (after.map Prod.fst))
      (divides : DividesInto ⟨first, before⟩ left) (onward : DividesInto ⟨next, after⟩ right) :
      DividesInto ⟨first, before ++ (operator, next) :: after⟩
        (.node (.operator operator) [left, right])

/-- The operands are numbers and names, the operators binary ones of the table. -/
structure IsOver (chain : Chain) (table : List Operator) : Prop where
  leaves : ∀ operand ∈ chain.operands, IsLeaf operand
  known : chain.operators ⊆ table
  binary : ∀ operator ∈ chain.operators, operator.operands = 2

section

variable {table : List Operator} {chain : Chain} {first next : Token} {operator : Operator}
variable {before after : List (Operator × Token)} {tree : OperatorTree Token}

theorem text_append_cons :
    text ⟨first, before ++ (operator, next) :: after⟩ =
      text ⟨first, before⟩ ++ [.operator operator] ++ text ⟨next, after⟩ := by
  simp [text]

theorem operators_append_cons :
    operators ⟨first, before ++ (operator, next) :: after⟩ =
      before.map Prod.fst ++ operator :: after.map Prod.fst := by
  simp [operators]

theorem operands_append_cons :
    operands ⟨first, before ++ (operator, next) :: after⟩ =
      operands ⟨first, before⟩ ++ operands ⟨next, after⟩ := by
  simp [operands]

namespace IsOver

theorem parts (isOver : IsOver ⟨first, before ++ (operator, next) :: after⟩ table) :
    IsOver ⟨first, before⟩ table ∧ operator ∈ table ∧ operator.operands = 2 ∧
      IsOver ⟨next, after⟩ table := by
  obtain ⟨leaves, known, binary⟩ := isOver
  simp only [operators_append_cons, operands_append_cons, List.forall_mem_append,
    List.forall_mem_cons, List.append_subset, List.cons_subset] at leaves known binary
  exact ⟨⟨leaves.1, known.1, binary.1⟩, known.2.1, binary.2.1, ⟨leaves.2, known.2.2, binary.2.2⟩⟩

theorem shared (isOver : chain.IsOver table) (sharing : SharesGrouping table)
    {other : Operator} (isKnown : operator ∈ table) (binary : operator.operands = 2)
    (member : other ∈ chain.operators) (same : operator.precedence = other.precedence) :
    operator.leftAssociative = other.leftAssociative :=
  sharing operator isKnown other (isOver.known member) binary (isOver.binary other member) same

end IsOver

/-- Reading a chain gives out a beginning of its tree and holds the rest, which is operators. -/
theorem DividesInto.reads (divides : chain.DividesInto tree) (sharing : SharesGrouping table)
    (isOver : chain.IsOver table) {pending : List Token}
    (kept : ∀ operator ∈ chain.operators, Keeps operator pending) :
    ∃ released held, Reads pending chain.text released held ∧
      released ++ held = tree.postorder ∧ ∀ item ∈ held, IsOperator (· ∈ chain.operators) item := by
  induction divides generalizing pending with
  | operand operand =>
      exact ⟨_, _, Reads.leaf (isOver.leaves operand (by simp [operands])), by simp, by simp⟩
  | @operator first next operator before after left right loosest divides onward leftIH rightIH =>
      obtain ⟨leftOver, known, binary, rightOver⟩ := isOver.parts
      simp only [operators_append_cons, List.forall_mem_append, List.forall_mem_cons] at kept
      obtain ⟨keptBefore, keptHere, _⟩ := kept
      obtain ⟨leftReleased, leftHeld, leftReads, leftWhole, leftOperators⟩ := leftIH leftOver keptBefore
      -- The dividing operator frees all that the left side holds, and what was pending before stays.
      have freed : ∀ item ∈ leftHeld, isReleasedBy operator item = true := fun item member =>
        ((leftOperators item member).mono fun _ stands =>
          loosest.releases binary stands).isReleasedBy
      have entered := leftReads.operator (.refl (Token.operator operator)) freed keptHere
      -- On the right side it is the pending item that nothing frees.
      obtain ⟨rightReleased, rightHeld, rightReads, rightWhole, rightOperators⟩ :=
        @rightIH rightOver (.operator operator :: pending) fun other stands =>
          keeps_of_not_releases (.refl (Token.operator operator))
            (loosest.not_released (rightOver.binary other stands) stands
              (rightOver.shared sharing known binary stands)) pending
      refine ⟨_, _, text_append_cons ▸ entered.append rightReads, ?_, ?_⟩
      · simp [leftWhole, ← rightWhole]
      · rw [operators_append_cons]
        intro item member
        rcases List.mem_append.mp member with earlier | last
        · exact (rightOperators item earlier).mono fun _ stands =>
            List.mem_append_right _ (List.mem_cons_of_mem _ stands)
        · obtain rfl := List.mem_singleton.mp last
          exact ⟨operator, rfl, by simp⟩

theorem DividesInto.order_eq_ok (divides : chain.DividesInto tree) (sharing : SharesGrouping table)
    (isOver : chain.IsOver table) : order [] chain.text = .ok tree.postorder := by
  have kept : ∀ operator ∈ chain.operators, Keeps operator ([] : List Token) :=
    fun _ _ _ none => by simp at none
  obtain ⟨released, held, reads, whole, operators⟩ := divides.reads sharing isOver kept
  rw [reads.order_eq_ok fun item member => (operators item member).isOpening_eq_false, whole]

theorem DividesInto.saturated (divides : chain.DividesInto tree) (isOver : chain.IsOver table) :
    tree.Saturated := by
  induction divides with
  | operand operand =>
      refine .node ?_ (by simp)
      rcases isOver.leaves operand (by simp [operands]) with ⟨value, same⟩ | ⟨name, same⟩ <;>
        rw [same] <;> rfl
  | operator loosest divides onward leftIH rightIH =>
      obtain ⟨leftOver, _, binary, rightOver⟩ := isOver.parts
      exact .node binary.symm (by simpa using ⟨leftIH leftOver, rightIH rightOver⟩)

theorem exists_loosest {links : List (Operator × Token)} (nonempty : links ≠ [])
    (isOver : IsOver ⟨first, links⟩ table) (sharing : SharesGrouping table) :
    ∃ before operator next after, links = before ++ (operator, next) :: after ∧
      operator.IsLoosest (before.map Prod.fst) (after.map Prod.fst) := by
  induction links generalizing first with
  | nil => contradiction
  | cons link rest ih =>
      obtain ⟨operator, next⟩ := link
      obtain ⟨_, known, binary, rightOver⟩ := @IsOver.parts table first next operator [] rest isOver
      cases rest with
      | nil => exact ⟨[], operator, next, [], rfl, by constructor <;> simp⟩
      | cons second others =>
          obtain ⟨before, found, operand, after, same, loosest⟩ := ih (by simp) rightOver
          have isFound : found ∈ operators ⟨next, second :: others⟩ := by
            rw [same, operators_append_cons]
            simp
          rcases loosest.cons (rightOver.shared sharing known binary isFound) with kept | looser
          · exact ⟨(operator, next) :: before, found, operand, after, by rw [same]; rfl, kept⟩
          · refine ⟨[], operator, next, second :: others, rfl, ?_⟩
            rw [same]
            simpa using looser

theorem exists_dividesInto (sharing : SharesGrouping table) (isOver : chain.IsOver table) :
    ∃ tree, chain.DividesInto tree := by
  obtain ⟨first, links⟩ := chain
  induction size : links.length using Nat.strongRecOn generalizing first links with
  | ind size ih =>
      by_cases empty : links = []
      · subst empty
        exact ⟨_, .operand first⟩
      · obtain ⟨before, operator, next, after, rfl, loosest⟩ := exists_loosest empty isOver sharing
        obtain ⟨leftOver, _, _, rightOver⟩ := isOver.parts
        simp only [List.length_append, List.length_cons] at size
        obtain ⟨left, divides⟩ := ih before.length (by omega) first before leftOver rfl
        obtain ⟨right, onward⟩ := ih after.length (by omega) next after rightOver rfl
        exact ⟨_, .operator loosest divides onward⟩

end

/-- A chain of numbers and names with binary operators, of which those of one precedence share their
grouping, divides in exactly one way, and is ordered into the tree of that. -/
theorem order_divides {table : List Operator} (sharing : SharesGrouping table) {chain : Chain}
    (isOver : chain.IsOver table) :
    ∃ tree, (∀ other, chain.DividesInto other ↔ other = tree) ∧
      order [] chain.text = .ok tree.postorder := by
  obtain ⟨tree, divides⟩ := exists_dividesInto sharing isOver
  have ordered := divides.order_eq_ok sharing isOver
  refine ⟨tree, fun other => ⟨fun also => ?_, ?_⟩, ordered⟩
  · have again := also.order_eq_ok sharing isOver
    rw [ordered, Except.ok.injEq] at again
    exact (also.saturated isOver).eq_of_postorder_eq (divides.saturated isOver) again.symm
  · rintro rfl
    exact divides

/-- `x <> y - 2 - z <> 1` with a loose operator that groups to the right is `x <> (((y - 2) - z) <> 1)`. -/
theorem order_divides_differences_in_loose :
    SharesGrouping (⟨"<>", 2, false, -3⟩ :: Operator.builtins) ∧
    ∃ tree, (∀ other, DividesInto ⟨.var "x", [(⟨"<>", 2, false, -3⟩, .var "y"),
        (⟨"-", 2, true, 500⟩, .number 2), (⟨"-", 2, true, 500⟩, .var "z"),
        (⟨"<>", 2, false, -3⟩, .number 1)]⟩ other ↔ other = tree) ∧
      tree.postorder = [.var "x", .var "y", .number 2, .operator ⟨"-", 2, true, 500⟩, .var "z",
        .operator ⟨"-", 2, true, 500⟩, .number 1, .operator ⟨"<>", 2, false, -3⟩,
        .operator ⟨"<>", 2, false, -3⟩] := by
  have sharing : SharesGrouping (⟨"<>", 2, false, -3⟩ :: Operator.builtins) := by
    unfold SharesGrouping
    decide
  have isOver : IsOver ⟨.var "x", [(⟨"<>", 2, false, -3⟩, .var "y"),
      (⟨"-", 2, true, 500⟩, .number 2), (⟨"-", 2, true, 500⟩, .var "z"),
      (⟨"<>", 2, false, -3⟩, .number 1)]⟩ (⟨"<>", 2, false, -3⟩ :: Operator.builtins) := by
    refine ⟨?_, by simp [operators, Operator.builtins], by simp [operators]⟩
    simp only [operands, List.map_cons, List.map_nil, List.forall_mem_cons]
    exact ⟨.inr ⟨_, rfl⟩, .inr ⟨_, rfl⟩, .inl ⟨_, rfl⟩, .inr ⟨_, rfl⟩, .inl ⟨_, rfl⟩, by simp⟩
  obtain ⟨tree, divides, ordered⟩ := order_divides sharing isOver
  exact ⟨sharing, tree, divides, (Except.ok.inj ordered).symm⟩

end Chain

end Formula
