import Mathlib
import Formula.Compiler
import Formula.Proofs.Assembly.Evaluation
import Formula.Proofs.Rpn.Acceptance
import Formula.Proofs.Rpn.Nesting
import Formula.Proofs.Rpn.Subtrees

namespace Formula

/-! Which RPN becomes an expression tree.

Without extensions and without a depth limit a tree fails only for what its tokens mean, or for an
exponent with a variable. Assembly looks for variables in the node of the exponent, in which powers
have been given constants as exponents; the tokens of the exponent tell the same.
-/

variable {α N : Type}

namespace Assembler

open OperatorTree

/-- Of the tree, every token makes a node of the nodes of its operands. -/
inductive Makes [Numeral α] (assembler : Assembler α N) : OperatorTree Token → N → Prop
  | node {head : Token} {operands : List (OperatorTree Token)} {nodes : List N} {made : N}
      (each : List.Forall₂ (Makes assembler) operands nodes)
      (makes : assembler.node head nodes = .ok made) : Makes assembler (.node head operands) made

variable [Numeral α] {assembler : Assembler α N} {tree : OperatorTree Token}

theorem makes_node_iff {head : Token} {operands : List (OperatorTree Token)} {made : N} :
    assembler.Makes (.node head operands) made ↔
      ∃ nodes, List.Forall₂ assembler.Makes operands nodes ∧ assembler.node head nodes = .ok made := by
  constructor
  · rintro ⟨each, makes⟩
    exact ⟨_, each, makes⟩
  · rintro ⟨nodes, each, makes⟩
    exact .node each makes

theorem foldlM_push_forest_iff {forest : List (OperatorTree Token)}
    (each : ∀ tree ∈ forest, ∀ stack result, tree.postorder.foldlM assembler.push stack = .ok result ↔
      ∃ made, assembler.Makes tree made ∧ result = made :: stack)
    (stack result : List N) :
    (forestPostorder forest).foldlM assembler.push stack = .ok result ↔
      ∃ nodes, List.Forall₂ assembler.Makes forest nodes ∧ result = nodes.reverse ++ stack := by
  induction forest generalizing stack with
  | nil => simp [pure, Except.pure, eq_comm]
  | cons first others ih =>
      have later := ih fun tree member => each tree (List.mem_cons_of_mem first member)
      rw [forestPostorder_cons, List.foldlM_append, bind_eq_ok_iff]
      simp only [each first (by simp), later, List.forall₂_cons_left_iff]
      constructor
      · rintro ⟨_, ⟨made, makes, rfl⟩, nodes, further, rfl⟩
        exact ⟨made :: nodes, ⟨made, nodes, makes, further, rfl⟩, by simp⟩
      · rintro ⟨_, ⟨made, nodes, makes, further, rfl⟩, rfl⟩
        exact ⟨made :: stack, ⟨made, makes, rfl⟩, nodes, further, by simp⟩

/-- The stack machine leaves on its stack what the tokens of a tree make, and fails if they make
nothing. -/
theorem foldlM_push_postorder_iff (saturated : tree.Saturated) (stack result : List N) :
    tree.postorder.foldlM assembler.push stack = .ok result ↔
      ∃ made, assembler.Makes tree made ∧ result = made :: stack := by
  induction saturated generalizing stack result with
  | @node head operands count each ih =>
      rw [postorder_node, List.foldlM_append, bind_eq_ok_iff]
      simp only [foldlM_push_forest_iff ih, List.foldlM_cons, List.foldlM_nil, bind_pure,
        makes_node_iff]
      -- The nodes of the operands lie on top of the stack, the last one first.
      have applied {nodes : List N} (makes : List.Forall₂ assembler.Makes operands nodes) :
          assembler.push (nodes.reverse ++ stack) head = .ok result ↔
            ∃ made, assembler.node head nodes = .ok made ∧ result = made :: stack := by
        have top : nodes.reverse.length = head.operands := by
          rw [List.length_reverse, ← makes.length_eq, count]
          rfl
        rw [push_eq_ok_iff, and_iff_right (by simp [← top]), ← top, List.take_left, List.drop_left,
          List.reverse_reverse]
      constructor
      · rintro ⟨_, ⟨nodes, makes, rfl⟩, pushed⟩
        obtain ⟨made, whole, rfl⟩ := (applied makes).mp pushed
        exact ⟨made, ⟨nodes, makes, whole⟩, rfl⟩
      · rintro ⟨made, ⟨nodes, makes, whole⟩, rfl⟩
        exact ⟨_, ⟨nodes, makes, rfl⟩, (applied makes).mpr ⟨made, whole, rfl⟩⟩

/-- Assembly makes of the postorder of a tree what its tokens make. -/
theorem build_postorder_iff (unlimited : assembler.maxDepth = none) (saturated : tree.Saturated)
    (admitted : ∀ token ∈ tree.postorder, assembler.Admits token) (made : N) :
    assembler.build tree.postorder = .ok made ↔ assembler.Makes tree made := by
  rw [build_eq_ok_iff unlimited admitted, run, foldlM_push_postorder_iff saturated]
  simp

end Assembler

def Variable.IsBound (bindings : List (Variable α)) (name : String) : Prop :=
  ∃ binding ∈ bindings, binding.name = name

theorem Variable.find?_eq_none_iff {bindings : List (Variable α)} {name : String} :
    find? bindings name = none ↔ ¬ Variable.IsBound bindings name := by
  simp [find?, IsBound]

theorem Variable.isBound_of_find? {bindings : List (Variable α)} {name : String} {found : Variable α}
    (first : find? bindings name = some found) : Variable.IsBound bindings name := by
  have same := List.find?_some first
  exact ⟨found, List.mem_of_find?_eq_some first, by simpa using same⟩

/-- Whether a token means something in an expression over these variables, without extensions. -/
def Token.HasMeaning [Numeral α] (bindings : List (Variable α)) : Token → Prop
  | .number literal => ∃ value : α, Numeral.ofLiteral? literal = some value
  | .var name => Variable.IsBound bindings name ∨ NamedConstant.isName name = true
  | .function definition =>
      definition.name ∈ ["acos", "asin", "atan", "log", "cos", "sin", "sqrt", "tan", "exp"]
  | .operator definition =>
      definition.operands = 1 ∧ definition.symbol ∈ ["-", "+"] ∨
        definition.operands = 2 ∧ definition.symbol ∈ ["+", "-", "*", "/", "^"]
  | .openParen | .closeParen | .comma => False

def Token.IsPower : Token → Prop
  | .operator definition => definition.symbol = "^"
  | .number _ | .var _ | .function _ | .openParen | .closeParen | .comma => False

namespace Rpn

/-- No token is the name of a bound variable. -/
def IsFixed (bindings : List (Variable α)) (rpn : List Token) : Prop :=
  ∀ name, .var name ∈ rpn → ¬ Variable.IsBound bindings name

/-- The tokens all have a meaning, and no exponent has a bound variable. An exponent is the word
before `^` that makes one value. -/
structure IsBuildable [Numeral α] (bindings : List (Variable α)) (rpn : List Token) : Prop where
  meanings : ∀ token ∈ rpn, token.HasMeaning bindings
  exponents : ∀ earlier exponent power later, rpn = earlier ++ exponent ++ power :: later →
    power.IsPower → balance exponent = .ok () → IsFixed bindings exponent

@[simp] theorem isFixed_append {bindings : List (Variable α)} {first second : List Token} :
    IsFixed bindings (first ++ second) ↔ IsFixed bindings first ∧ IsFixed bindings second := by
  simp only [IsFixed, List.mem_append, or_imp, forall_and]

theorem isFixed_flatten {bindings : List (Variable α)} {words : List (List Token)} :
    IsFixed bindings words.flatten ↔ ∀ word ∈ words, IsFixed bindings word := by
  simp only [IsFixed, List.mem_flatten]
  exact ⟨fun fixed word member name inside => fixed name ⟨word, member, inside⟩,
    fun fixed name ⟨word, member, inside⟩ => fixed word member name inside⟩

end Rpn

namespace OperatorTree

variable {bindings : List (Variable α)}

/-- No exponent in the tree has a variable. -/
def HasFixedExponents (bindings : List (Variable α)) (tree : OperatorTree Token) : Prop :=
  ∀ power base exponent, (node power [base, exponent]).Within tree → power.IsPower →
    Rpn.IsFixed bindings exponent.postorder

theorem hasFixedExponents_node {head : Token} {operands : List (OperatorTree Token)} :
    (node head operands).HasFixedExponents bindings ↔
      (head.IsPower → ∀ base exponent, operands = [base, exponent] →
        Rpn.IsFixed bindings exponent.postorder) ∧
      ∀ operand ∈ operands, operand.HasFixedExponents bindings := by
  constructor
  · refine fun fixed => ⟨?_, fun operand member power base exponent within =>
      fixed power base exponent (.operand member within)⟩
    rintro isPower base exponent rfl
    exact fixed head base exponent .self isPower
  · rintro ⟨first, others⟩ power base exponent within isPower
    cases within with
    | self => exact first isPower base exponent rfl
    | operand member inner => exact others _ member power base exponent inner isPower

end OperatorTree

section

open OperatorTree Assembler

variable [Numeral α] {bindings : List (Variable α)} {token : Token} {operands : List (Node α)}
  {made : Node α}

theorem Arithmetic.ofSymbol?_isSome {symbol : String} :
    (ofSymbol? symbol).isSome = true ↔ symbol ∈ ["+", "-", "*", "/"] := by
  simp [ofSymbol?, all, Arithmetic.symbol, @eq_comm _ symbol]

theorem Elementary.named?_isSome {name : String} :
    (named? name).isSome = true ↔
      name ∈ ["acos", "asin", "atan", "log", "cos", "sin", "sqrt", "tan", "exp"] := by
  simp [named?, all, Elementary.name, @eq_comm _ name]

theorem NamedConstant.named?_isSome {name : String} :
    (named? name).isSome = true ↔ isName name = true := by
  simp only [named?]
  split_ifs <;> simp [isName, names] <;> tauto

namespace Assembler

/-- A node is constant just when what it is formed of is. -/
theorem isConstant_iff_of_forms (forms : (Node.assembler bindings {} none).Forms token operands made)
    (count : operands.length = token.operands) :
    made.isConstant = true ↔
      (∀ operand ∈ operands, operand.isConstant = true) ∧ Rpn.IsFixed bindings [token] := by
  cases forms with
  | number read =>
      obtain rfl := List.length_eq_zero_iff.mp count
      simp [Node.assembler, Node.target, Node.isConstant, Rpn.IsFixed]
  | bound bound =>
      obtain ⟨found, first, rfl⟩ := Option.map_eq_some_iff.mp bound
      simpa [Node.isConstant, Rpn.IsFixed] using fun _ => Variable.isBound_of_find? first
  | named free named =>
      obtain rfl := List.length_eq_zero_iff.mp count
      have unbound := Variable.find?_eq_none_iff.mp (Option.map_eq_none_iff.mp free)
      simpa [Node.assembler, Node.target, Node.isConstant, Rpn.IsFixed] using unbound
  | call named => simp [Node.assembler, Node.target, Node.isConstant, Rpn.IsFixed]
  | minus written => simp [Node.assembler, Node.target, Node.isConstant, Rpn.IsFixed]
  | plus written => simp [Rpn.IsFixed]
  | binary meaning => simp [Node.assembler, Node.target, Node.isConstant, Rpn.IsFixed]
  | @power operator base exponent value written worth =>
      -- The exponent is gone from the node, but it was constant.
      have fixed := (constantValue?_eq_some_iff.mp worth).1
      simp [Node.assembler, Node.target, Node.isConstant, Rpn.IsFixed, fixed]

theorem exists_forms_iff (admitted : (Node.assembler bindings {} none).Admits token)
    (count : operands.length = token.operands) :
    (∃ made, (Node.assembler bindings {} none).Forms token operands made) ↔
      token.HasMeaning bindings ∧
        (token.IsPower → ∀ base exponent, operands = [base, exponent] →
          exponent.isConstant = true) := by
  constructor
  · rintro ⟨made, forms⟩
    cases forms with
    | number read => exact ⟨⟨_, read⟩, nofun⟩
    | bound bound =>
        obtain ⟨found, first, rfl⟩ := Option.map_eq_some_iff.mp bound
        exact ⟨.inl (Variable.isBound_of_find? first), nofun⟩
    | named free named =>
        exact ⟨.inr (NamedConstant.named?_isSome.mp (by simp [named])), nofun⟩
    | call named => exact ⟨Elementary.named?_isSome.mp (by simp [named]), nofun⟩
    | minus written => exact ⟨.inl ⟨count.symm, by simp [written]⟩, nofun⟩
    | plus written => exact ⟨.inl ⟨count.symm, by simp [written]⟩, nofun⟩
    | @binary operator operation left right meaning =>
        have known : operator.symbol ∈ ["+", "-", "*", "/"] :=
          Arithmetic.ofSymbol?_isSome.mp (by simp [meaning])
        refine ⟨.inr ⟨count.symm, List.mem_append_left ["^"] known⟩, fun caret => ?_⟩
        have symbol : operator.symbol = "^" := caret
        simp [symbol] at known
    | @power operator base exponent value written worth =>
        refine ⟨.inr ⟨count.symm, by simp [written]⟩, fun _ _ _ same => ?_⟩
        cases same
        exact (constantValue?_eq_some_iff.mp worth).1
  · rintro ⟨meaning, fixed⟩
    cases token with
    | number literal =>
        obtain ⟨value, read⟩ := meaning
        exact ⟨_, .number read⟩
    | var name =>
        cases looked : Variable.find? bindings name with
        | some found =>
            have bound : (Node.assembler bindings {} none).boundNode? name = some (.var found.name) :=
              Option.map_eq_some_iff.mpr ⟨found, looked, rfl⟩
            exact ⟨_, .bound bound⟩
        | none =>
            have isName := meaning.resolve_left (Variable.find?_eq_none_iff.mp looked)
            obtain ⟨constant, named⟩ :=
              Option.isSome_iff_exists.mp (NamedConstant.named?_isSome.mpr isName)
            exact ⟨_, .named (Option.map_eq_none_iff.mpr looked) named⟩
    | function function =>
        obtain ⟨elementary, named⟩ :=
          Option.isSome_iff_exists.mp (Elementary.named?_isSome.mpr meaning)
        have one : function.arity = 1 := admitted rfl _ (builtin?_of_named named)
        obtain ⟨operand, rfl⟩ := List.length_eq_one_iff.mp (count.trans one)
        exact ⟨_, .call named⟩
    | operator operator =>
        rcases meaning with ⟨one, sign⟩ | ⟨two, symbol⟩
        · obtain ⟨operand, rfl⟩ := List.length_eq_one_iff.mp (count.trans one)
          rcases List.mem_pair.mp sign with minus | plus
          · exact ⟨_, .minus minus⟩
          · exact ⟨_, .plus plus⟩
        · obtain ⟨left, right, rfl⟩ := List.length_eq_two.mp (count.trans two)
          by_cases caret : operator.symbol = "^"
          · have constant := fixed caret left right rfl
            exact ⟨_, .power caret (constantValue?_eq_some_iff.mpr ⟨constant, rfl⟩)⟩
          · have known : operator.symbol ∈ ["+", "-", "*", "/"] := by
              simpa [caret] using symbol
            obtain ⟨operation, meaning⟩ :=
              Option.isSome_iff_exists.mp (Arithmetic.ofSymbol?_isSome.mpr known)
            exact ⟨_, .binary meaning⟩
    | openParen => exact meaning.elim
    | closeParen => exact meaning.elim
    | comma => exact meaning.elim

section

variable {β γ : Type} {first : β → Prop} {second : γ → Prop} {items : List β} {others : List γ}

theorem forall_mem_iff_of_forall₂
    (agree : List.Forall₂ (fun item other => second other ↔ first item) items others) :
    (∀ other ∈ others, second other) ↔ ∀ item ∈ items, first item := by
  induction agree with
  | nil => simp
  | cons pair further ih => rw [List.forall_mem_cons, List.forall_mem_cons, pair, ih]

theorem exists_of_mem_of_forall₂ {relation : β → γ → Prop}
    (related : List.Forall₂ relation items others) : ∀ item ∈ items, ∃ other, relation item other := by
  induction related with
  | nil => simp
  | cons pair further ih => exact List.forall_mem_cons.mpr ⟨⟨_, pair⟩, ih⟩

theorem second_iff_of_forall₂
    (agree : List.Forall₂ (fun item other => second other ↔ first item) items others) :
    (∀ left right, others = [left, right] → second right) ↔
      ∀ left right, items = [left, right] → first right := by
  match agree with
  | .nil => simp
  | .cons _ .nil => simp
  | .cons _ (.cons last .nil) => simpa using last
  | .cons _ (.cons _ (.cons _ _)) => simp

end

/-- What a tree makes is constant just when no token in it is a variable, also inside exponents. -/
theorem Makes.isConstant_iff {tree : OperatorTree Token} (saturated : tree.Saturated)
    (makes : (Node.assembler bindings {} none).Makes tree made) :
    made.isConstant = true ↔ Rpn.IsFixed bindings tree.postorder := by
  induction saturated generalizing made with
  | @node head operands count each ih =>
      obtain ⟨nodes, below, whole⟩ := makes_node_iff.mp makes
      have agree := ((List.forall₂_and_left _ _).mpr ⟨ih, below⟩).imp fun _ _ both => both.1 both.2
      rw [isConstant_iff_of_forms ((node_eq_ok_iff rfl).mp whole) (below.length_eq.symm.trans count),
        forall_mem_iff_of_forall₂ agree, postorder_node, Rpn.isFixed_append,
        forestPostorder_eq_flatten, Rpn.isFixed_flatten, List.forall_mem_map]

theorem exists_node_iff {operands : List (OperatorTree Token)} {nodes : List (Node α)}
    (admitted : (Node.assembler bindings {} none).Admits token)
    (count : operands.length = token.operands) (each : ∀ operand ∈ operands, operand.Saturated)
    (makes : List.Forall₂ (Node.assembler bindings {} none).Makes operands nodes) :
    (∃ made, (Node.assembler bindings {} none).node token nodes = .ok made) ↔
      token.HasMeaning bindings ∧
        (token.IsPower → ∀ base exponent, operands = [base, exponent] →
          Rpn.IsFixed bindings exponent.postorder) := by
  have agree := ((List.forall₂_and_left _ _).mpr ⟨each, makes⟩).imp
    fun _ _ both => both.2.isConstant_iff both.1
  rw [exists_congr fun made => node_eq_ok_iff rfl,
    exists_forms_iff admitted (makes.length_eq.symm.trans count), second_iff_of_forall₂ agree]

/-- A tree makes a node just when its tokens have a meaning and no exponent in it has a variable. -/
theorem exists_makes_iff {tree : OperatorTree Token} (saturated : tree.Saturated)
    (admitted : ∀ token ∈ tree.postorder, (Node.assembler bindings {} none).Admits token) :
    (∃ made, (Node.assembler bindings {} none).Makes tree made) ↔
      (∀ token ∈ tree.postorder, token.HasMeaning bindings) ∧ tree.HasFixedExponents bindings := by
  induction saturated with
  | @node head operands count each ih =>
      rw [forall_mem_postorder_node] at admitted ⊢
      rw [hasFixedExponents_node]
      have below := fun operand member => ih operand member (admitted.1 operand member)
      constructor
      · rintro ⟨made, makes⟩
        obtain ⟨nodes, inner, whole⟩ := makes_node_iff.mp makes
        obtain ⟨meaning, fixed⟩ := (exists_node_iff admitted.2 count each inner).mp ⟨made, whole⟩
        have parts := fun operand member =>
          (below operand member).mp (exists_of_mem_of_forall₂ inner operand member)
        exact ⟨⟨fun operand member => (parts operand member).1, meaning⟩, fixed,
          fun operand member => (parts operand member).2⟩
      · rintro ⟨⟨meanings, meaning⟩, fixed, exponents⟩
        obtain ⟨nodes, inner⟩ := Rpn.exists_words fun operand member =>
          (below operand member).mpr ⟨meanings operand member, exponents operand member⟩
        obtain ⟨made, whole⟩ := (exists_node_iff admitted.2 count each inner).mpr ⟨meaning, fixed⟩
        exact ⟨made, makes_node_iff.mpr ⟨nodes, inner, whole⟩⟩

end Assembler

theorem Token.HasMeaning.operands_eq_two (meaning : token.HasMeaning bindings)
    (isPower : token.IsPower) : token.operands = 2 := by
  cases token with
  | operator operator =>
      have caret : operator.symbol = "^" := isPower
      simpa [Token.HasMeaning, Token.operands, caret] using meaning
  | number _ | var _ | function _ | openParen | closeParen | comma => exact isPower.elim

/-- The exponents of a tree are the words before `^` that make one value. -/
theorem OperatorTree.hasFixedExponents_iff {tree : OperatorTree Token} (saturated : tree.Saturated)
    (meanings : ∀ token ∈ tree.postorder, token.HasMeaning bindings) :
    tree.HasFixedExponents bindings ↔
      ∀ earlier exponent power later, tree.postorder = earlier ++ exponent ++ power :: later →
        power.IsPower → Rpn.balance exponent = .ok () → Rpn.IsFixed bindings exponent := by
  constructor
  · intro fixed earlier word power later written isPower balanced
    rw [← Rpn.map_lexical_token word] at balanced
    obtain ⟨exponent, isTree, rfl⟩ := exists_of_balance balanced
    obtain ⟨operands, before, within, same⟩ := exists_within_of_postorder_eq saturated written
    cases within.saturated saturated with
    | node count each =>
        have two := (meanings power (by simp [written])).operands_eq_two isPower
        obtain ⟨base, last, rfl⟩ := List.length_eq_two.mp (count.trans two)
        rw [forestPostorder_cons, forestPostorder_cons, forestPostorder_nil, List.append_nil,
          ← List.append_assoc] at same
        -- Before the power ends one word only that makes a value.
        obtain rfl := isTree.eq_of_append_postorder_eq (each last (by simp)) same
        exact fixed power base exponent within isPower
  · intro fixed power base exponent within isPower
    obtain ⟨earlier, later, written⟩ := within.exists_postorder
    have balanced : Rpn.balance exponent.postorder = .ok () := by
      cases within.saturated saturated with
      | node count each =>
          have counted := Rpn.balance_postorder (each exponent (by simp))
          rwa [Rpn.map_lexical_token] at counted
    rw [forestPostorder_cons, forestPostorder_cons, forestPostorder_nil, List.append_nil,
      ← List.append_assoc] at written
    exact fixed _ _ _ _ written isPower balanced

/-- Balanced RPN whose built-in functions have their own arity becomes a tree just when it is
buildable; else assembly fails. -/
theorem exists_build_iff_isBuildable {rpn : List Token} (balanced : Rpn.balance rpn = .ok ())
    (admitted : ∀ token ∈ rpn, (Node.assembler bindings {} none).Admits token) :
    ((∃ tree, (Node.assembler bindings {} none).build rpn = .ok tree) ↔
      Rpn.IsBuildable bindings rpn) ∧
    ((∃ reason, (Node.assembler bindings {} none).build rpn = .error reason) ↔
      ¬ Rpn.IsBuildable bindings rpn) := by
  rw [← Rpn.map_lexical_token rpn] at balanced
  obtain ⟨tree, saturated, rfl⟩ := exists_of_balance balanced
  have builds : (∃ made, (Node.assembler bindings {} none).build tree.postorder = .ok made) ↔
      Rpn.IsBuildable bindings tree.postorder := by
    rw [exists_congr fun made => build_postorder_iff rfl saturated admitted made,
      exists_makes_iff saturated admitted]
    constructor
    · rintro ⟨meanings, fixed⟩
      exact ⟨meanings, (hasFixedExponents_iff saturated meanings).mp fixed⟩
    · rintro ⟨meanings, exponents⟩
      exact ⟨meanings, (hasFixedExponents_iff saturated meanings).mpr exponents⟩
  refine ⟨builds, ?_⟩
  rw [← builds]
  cases (Node.assembler bindings {} none).build tree.postorder <;> simp

/-- `x ^ π ^ (+e)`, where the exponent of `x` has an exponent; and `x ^ π ^ (+x)`, where that has a
variable. -/
theorem isBuildable_powers :
    (Rpn.balance [.var "x", .var "pi", .var "e", .operator ⟨"+", 1, false, 5000⟩,
        .operator ⟨"^", 2, false, 10000⟩, .operator ⟨"^", 2, false, 10000⟩] = .ok () ∧
      Rpn.IsBuildable [⟨"x", (1 : Float)⟩] [.var "x", .var "pi", .var "e",
        .operator ⟨"+", 1, false, 5000⟩, .operator ⟨"^", 2, false, 10000⟩,
        .operator ⟨"^", 2, false, 10000⟩]) ∧
    Rpn.balance [.var "x", .var "pi", .var "x", .operator ⟨"+", 1, false, 5000⟩,
        .operator ⟨"^", 2, false, 10000⟩, .operator ⟨"^", 2, false, 10000⟩] = .ok () ∧
      ¬ Rpn.IsBuildable [⟨"x", (1 : Float)⟩] [.var "x", .var "pi", .var "x",
        .operator ⟨"+", 1, false, 5000⟩, .operator ⟨"^", 2, false, 10000⟩,
        .operator ⟨"^", 2, false, 10000⟩] := by
  refine ⟨⟨rfl, ?_⟩, rfl, ?_⟩
  · exact (exists_build_iff_isBuildable rfl (by simp [Admits])).1.mp ⟨_, rfl⟩
  · exact (exists_build_iff_isBuildable rfl (by simp [Admits])).2.mp ⟨_, rfl⟩

end

end Formula
