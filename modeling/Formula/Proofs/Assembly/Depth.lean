import Formula.Proofs.Assembly.Descent
import Formula.Proofs.Compiler.Outcome
import Formula.Proofs.Rpn.Acceptance

namespace Formula

/-! The limit on the depth of an assembly.

The depth of RPN is that of its operator tree. A limit changes nothing for RPN that is no deeper,
and of deeper RPN it leaves nothing but failures. The expression that comes out is no deeper than
the RPN, unless extensions put something into it.
-/

variable {α N : Type}

namespace OperatorTree

variable {τ : Type}

mutual

/-- The number of items on the longest way down. -/
def depth : OperatorTree τ → Nat
  | node _ operands => 1 + forestDepth operands

/-- The depth of the deepest of several trees. -/
def forestDepth : List (OperatorTree τ) → Nat
  | [] => 0
  | first :: others => max first.depth (forestDepth others)

end

@[simp] theorem depth_node (head : τ) (operands : List (OperatorTree τ)) :
    (node head operands).depth = 1 + forestDepth operands := by
  rw [depth]

@[simp] theorem forestDepth_nil : forestDepth ([] : List (OperatorTree τ)) = 0 := by
  rw [forestDepth]

@[simp] theorem forestDepth_cons (first : OperatorTree τ) (others : List (OperatorTree τ)) :
    forestDepth (first :: others) = max first.depth (forestDepth others) := by
  rw [forestDepth]

theorem forestDepth_le_iff {forest : List (OperatorTree τ)} {bound : Nat} :
    forestDepth forest ≤ bound ↔ ∀ tree ∈ forest, tree.depth ≤ bound := by
  induction forest with
  | nil => simp
  | cons first others ih => rw [forestDepth_cons, max_le_iff, ih, List.forall_mem_cons]

/-- A tree at a depth fits under a limit if its root does, and its operands one level below. -/
theorem add_depth_node_le_iff {head : τ} {operands : List (OperatorTree τ)} {depth limit : Nat} :
    depth + (node head operands).depth ≤ limit + 1 ↔
      depth ≤ limit ∧ ∀ operand ∈ operands, depth + 1 + operand.depth ≤ limit + 1 := by
  have below (above : depth ≤ limit) : forestDepth operands ≤ limit - depth ↔
      ∀ operand ∈ operands, depth + 1 + operand.depth ≤ limit + 1 := by
    rw [forestDepth_le_iff]
    refine forall₂_congr fun operand _ => ?_
    omega
  rw [depth_node]
  constructor
  · intro fits
    exact ⟨by omega, (below (by omega)).mp (by omega)⟩
  · rintro ⟨above, fits⟩
    have deepest := (below above).mpr fits
    omega

end OperatorTree

/-- How a limit changes an outcome: not at all if what is built fits, else to a failure, because of
the limit or as without one. -/
structure IsLimited {β : Type} (fits : Prop) (limited unlimited : Except CompileError β) :
    Prop where
  eq : fits → limited = unlimited
  fails : ¬ fits → ∃ reason, limited = .error reason ∧
    (reason = .depthExceeded ∨ unlimited = .error reason)

namespace IsLimited

variable {β γ : Type} {fits further : Prop} {limited unlimited : Except CompileError β}

theorem error (reason : CompileError) :
    IsLimited fits (.error reason : Except CompileError β) (.error reason) where
  eq _ := rfl
  fails _ := ⟨reason, rfl, .inr rfl⟩

theorem exceeded (excluded : ¬ fits) : IsLimited fits (.error .depthExceeded) unlimited where
  eq fitting := absurd fitting excluded
  fails _ := ⟨_, rfl, .inl rfl⟩

theorem ok (fitting : fits) (outcome : Except CompileError β) : IsLimited fits outcome outcome where
  eq _ := rfl
  fails excluded := absurd fitting excluded

theorem congr (first : IsLimited fits limited unlimited) (same : further ↔ fits) :
    IsLimited further limited unlimited :=
  ⟨fun fitting => first.eq (same.mp fitting), fun excluded => first.fails (excluded ∘ same.mpr)⟩

theorem bind (first : IsLimited fits limited unlimited) {next other : β → Except CompileError γ}
    (each : ∀ value, IsLimited further (next value) (other value)) :
    IsLimited (fits ∧ further) (limited >>= next) (unlimited >>= other) := by
  by_cases fitting : fits
  · rw [first.eq fitting]
    cases unlimited with
    | error reason => exact .error reason
    | ok value =>
        exact ⟨fun both => (each value).eq both.2,
          fun excluded => (each value).fails fun also => excluded ⟨fitting, also⟩⟩
  · obtain ⟨reason, rfl, rfl | rfl⟩ := first.fails fitting
    · exact .exceeded fun both => fitting both.1
    · exact .error reason

theorem andThen (first : IsLimited fits limited unlimited) (next : β → Except CompileError γ) :
    IsLimited fits (limited >>= next) (unlimited >>= next) :=
  (first.bind fun value => .ok trivial (next value)).congr (and_true fits).symm.to_iff

end IsLimited

namespace Assembler

open OperatorTree

/-- The assembler with another limit on the depth, or without one. -/
def withLimit (assembler : Assembler α N) (maxDepth : Option Nat) : Assembler α N :=
  { assembler with maxDepth }

variable [Numeral α] {assembler : Assembler α N}

theorem beginning_withLimit (maxDepth : Option Nat) :
    (assembler.withLimit maxDepth).beginning = assembler.beginning := rfl

theorem descendForest_isLimited {forest : List (OperatorTree Token)} {depth limit : Nat}
    (each : ∀ tree ∈ forest, IsLimited (depth + tree.depth ≤ limit + 1)
      ((assembler.withLimit (some limit)).descend depth tree)
      ((assembler.withLimit none).descend depth tree)) :
    IsLimited (∀ tree ∈ forest, depth + tree.depth ≤ limit + 1)
      ((assembler.withLimit (some limit)).descendForest depth forest)
      ((assembler.withLimit none).descendForest depth forest) := by
  induction forest with
  | nil => exact .ok (by simp) _
  | cons first others ih =>
      obtain ⟨here, further⟩ := List.forall_mem_cons.mp each
      rw [descendForest, descendForest]
      refine ((ih further).bind fun nodes => here.andThen fun node => pure (node :: nodes)).congr ?_
      rw [List.forall_mem_cons, and_comm]

theorem descend_isLimited {tree : OperatorTree Token} (saturated : tree.Saturated)
    (counted : ∀ token ∈ tree.postorder, assembler.Counts token) (depth limit : Nat) :
    IsLimited (depth + tree.depth ≤ limit + 1)
      ((assembler.withLimit (some limit)).descend depth tree)
      ((assembler.withLimit none).descend depth tree) := by
  induction saturated generalizing depth with
  | @node head operands count each ih =>
      obtain ⟨below, here⟩ := forall_mem_postorder_node.mp counted
      have inner := fun operand member => ih operand member (below operand member) (depth + 1)
      rw [descend, descend, beginning_withLimit, beginning_withLimit]
      simp only [withLimit, Option.any_some, Option.any_none, decide_eq_true_eq, Bool.false_eq_true,
        ↓reduceIte]
      rw [Counts] at here
      by_cases deep : limit < depth
      · rw [if_pos deep]
        exact .exceeded fun fits => by
          have above := (add_depth_node_le_iff.mp fits).1
          omega
      · rw [if_neg deep]
        cases opened : assembler.beginning head with
        | error reason => exact .error reason
        | ok beginning =>
            rw [opened] at here
            cases beginning with
            | node complete =>
                obtain rfl : operands = [] := List.length_eq_zero_iff.mp (count.trans here)
                exact .ok (add_depth_node_le_iff.mpr ⟨by omega, by simp⟩) _
            | frame frame =>
                refine ((descendForest_isLimited inner).andThen frame.closed).congr ?_
                rw [add_depth_node_le_iff, and_iff_right (by omega)]
            | nothing => exact here.elim

/-- Assembly of the RPN of a tree is limited by the depth of the tree. -/
theorem build_isLimited {tree : OperatorTree Token} (saturated : tree.Saturated)
    (counted : ∀ token ∈ tree.postorder, assembler.Counts token) (limit : Nat) :
    IsLimited (tree.depth ≤ limit) ((assembler.withLimit (some limit)).build tree.postorder)
      ((assembler.withLimit none).build tree.postorder) := by
  have descends (maxDepth : Option Nat) : (assembler.withLimit maxDepth).build tree.postorder =
      (assembler.withLimit maxDepth).descend 1 tree :=
    build_eq_descend saturated counted
  rw [descends, descends]
  exact (descend_isLimited saturated counted 1 limit).congr (by omega)

/-- The token stands for an extension. -/
def Expands (assembler : Assembler α N) : Token → Prop
  | .function function => (assembler.extensions.function? function.name).isSome = true
  | .operator operator => (assembler.customOperator? operator).isSome = true
  | .number _ | .var _ | .openParen | .closeParen | .comma => False

end Assembler

namespace Frame

/-- What becomes of operands is at most one level deeper than they are. -/
def AddsLevel (frame : Frame (Node α)) : Prop :=
  ∀ operands made bound, (∀ operand ∈ operands, operand.depth ≤ bound) →
    frame.closed operands = .ok made → made.depth ≤ 1 + bound

theorem addsLevel_unary {finish : Node α → Node α}
    (deeper : ∀ operand, (finish operand).depth ≤ 1 + operand.depth) :
    (Frame.unary finish).AddsLevel := by
  intro operands made bound each closed
  match operands with
  | [] => contradiction
  | [operand] =>
      cases closed
      have below := each operand (by simp)
      exact (deeper operand).trans (by omega)
  | _ :: _ :: _ => contradiction

theorem addsLevel_right {finish : Node α → Node α → Except CompileError (Node α)}
    (deeper : ∀ first second made, finish first second = .ok made →
      made.depth ≤ 1 + max first.depth second.depth) :
    (Frame.right finish).AddsLevel := by
  intro operands made bound each closed
  match operands with
  | [] | [_] => contradiction
  | [first, second] =>
      have firstBelow := each first (by simp)
      have secondBelow := each second (by simp)
      exact (deeper first second made closed).trans (by omega)
  | _ :: _ :: _ :: _ => contradiction

end Frame

/-- A node is a leaf, or a frame adds one level at most. -/
def Beginning.AddsLevel : Beginning (Node α) → Prop
  | .node complete => complete.depth = 1
  | .frame opened => opened.AddsLevel
  | .nothing => True

namespace Assembler

open OperatorTree

theorem depth_of_constantPower [Scalar α] {assignment : Assignment α} {base exponent made : Node α}
    (powered : (Node.target assignment).constantPower base exponent = .ok made) :
    made.depth ≤ 1 + max base.depth exponent.depth := by
  simp only [Target.constantPower] at powered
  split at powered
  · cases powered
    -- The exponent is gone, and in its place stands a leaf.
    have leaf : 1 ≤ base.depth := by cases base <;> simp only [Node.depth] <;> omega
    simp only [Node.target, Node.depth]
    omega
  · contradiction

theorem builtinFrame?_addsLevel [Scalar α] {assignment : Assignment α} {operator : Operator}
    {frame : Frame (Node α)}
    (opened : builtinFrame? (Node.target assignment) operator = some frame) :
    frame.AddsLevel := by
  simp only [builtinFrame?] at opened
  split at opened
  · split at opened
    · cases opened
      exact Frame.addsLevel_unary fun operand => Nat.le_refl _
    split at opened
    · cases opened
      exact Frame.addsLevel_unary fun operand => Nat.le_add_left _ _
    · contradiction
  · split at opened
    · cases opened
      exact Frame.addsLevel_right fun _ _ _ powered => depth_of_constantPower powered
    · obtain ⟨operation, _, rfl⟩ := Option.map_eq_some_iff.mp opened
      refine Frame.addsLevel_right fun left right made built => ?_
      cases built
      exact Nat.le_refl _
  · contradiction

variable [Numeral α] {bindings : List (Variable α)} {extensions : Extensions (Node α)}
  {maxDepth : Option Nat}

theorem beginning_addsLevel {token : Token} {begun : Beginning (Node α)}
    (plain : ¬ (Node.assembler bindings extensions maxDepth).Expands token)
    (opened : (Node.assembler bindings extensions maxDepth).beginning token = .ok begun) :
    begun.AddsLevel := by
  cases token with
  | number literal =>
      simp only [beginning] at opened
      split at opened
      · cases opened
        rfl
      · contradiction
  | var name =>
      simp only [beginning, variableNode] at opened
      split at opened
      case h_1 node bound =>
        obtain ⟨found, _, rfl⟩ := Option.map_eq_some_iff.mp bound
        cases opened
        rfl
      case h_2 =>
        split at opened
        · cases opened
          rfl
        · contradiction
  | function function =>
      have noneCustom := Option.not_isSome_iff_eq_none.mp plain
      simp only [beginning, functionBeginning, noneCustom] at opened
      split at opened
      · cases opened
        exact Frame.addsLevel_unary fun operand => Nat.le_refl _
      · contradiction
  | operator operator =>
      have noneCustom := Option.not_isSome_iff_eq_none.mp plain
      simp only [beginning, operatorBeginning, noneCustom] at opened
      split at opened
      case h_1 frame isBuiltin =>
        cases opened
        exact builtinFrame?_addsLevel isBuiltin
      case h_2 => contradiction
  | openParen =>
      cases opened
      exact trivial
  | closeParen =>
      cases opened
      exact trivial
  | comma => contradiction

theorem depth_of_descendForest {forest : List (OperatorTree Token)} {depth : Nat}
    {nodes : List (Node α)}
    (each : ∀ tree ∈ forest, ∀ made,
      (Node.assembler bindings extensions maxDepth).descend depth tree = .ok made →
        made.depth ≤ tree.depth)
    (read : (Node.assembler bindings extensions maxDepth).descendForest depth forest = .ok nodes) :
    ∀ node ∈ nodes, node.depth ≤ forestDepth forest := by
  induction forest generalizing nodes with
  | nil =>
      obtain rfl : [] = nodes := by simpa [descendForest] using read
      simp
  | cons first others ih =>
      obtain ⟨here, further⟩ := List.forall_mem_cons.mp each
      obtain ⟨node, later, made, readLater, rfl⟩ := descendForest_cons_eq_ok_iff.mp read
      have deepest := ih further readLater
      rw [forestDepth_cons]
      exact List.forall_mem_cons.mpr ⟨le_max_of_le_left (here node made),
        fun other member => le_max_of_le_right (deepest other member)⟩

/-- Without extensions an expression is no deeper than the operator tree that it is made of. -/
theorem depth_of_descend {tree : OperatorTree Token} (saturated : tree.Saturated)
    (plain : ∀ token ∈ tree.postorder,
      ¬ (Node.assembler bindings extensions maxDepth).Expands token)
    {depth : Nat} {made : Node α}
    (built : (Node.assembler bindings extensions maxDepth).descend depth tree = .ok made) :
    made.depth ≤ tree.depth := by
  induction saturated generalizing depth made with
  | @node head operands count each ih =>
      obtain ⟨below, here⟩ := forall_mem_postorder_node.mp plain
      rw [descend] at built
      rw [depth_node]
      split at built
      · contradiction
      split at built
      · contradiction
      case h_2 complete opened =>
        cases built
        have leaf : made.depth = 1 := beginning_addsLevel here opened
        omega
      case h_3 frame opened =>
        obtain ⟨nodes, read, closed⟩ := bind_eq_ok_iff.mp built
        have addsLevel : frame.AddsLevel := beginning_addsLevel here opened
        have each := depth_of_descendForest
          (fun operand member made built => ih operand member (below operand member) built) read
        exact addsLevel nodes made _ each closed
      · contradiction

/-- The limit on the depth is exact. Balanced RPN writes an operator tree. If that is no deeper than
the limit, assembly does with the limit what it does without one; else it fails, because of the
limit or as it does without one. An expression is no deeper than the limit that it is built under,
unless an extension puts something into it. Of the tokens it is asked that assembly reads as many
nodes for them as they count operands, which holds of all that a compiler hands to it. -/
theorem build_withLimit {rpn : List Token} (balanced : Rpn.balance rpn = .ok ()) :
    (∃ tree : OperatorTree Token, tree.Saturated ∧ tree.postorder = rpn ∧
      ∀ assembler : Assembler α N, (∀ token ∈ rpn, assembler.Counts token) → ∀ limit : Nat,
        (tree.depth ≤ limit →
          (assembler.withLimit (some limit)).build rpn = (assembler.withLimit none).build rpn) ∧
        (limit < tree.depth → ∃ reason,
          (assembler.withLimit (some limit)).build rpn = .error reason ∧
            (reason = .depthExceeded ∨
              (assembler.withLimit none).build rpn = .error reason))) ∧
    (∀ (bindings : List (Variable α)) (extensions : Extensions (Node α)) (limit : Nat)
        (made : Node α),
      (∀ token ∈ rpn, (Node.assembler bindings extensions (some limit)).Counts token) →
      (∀ token ∈ rpn, ¬ (Node.assembler bindings extensions (some limit)).Expands token) →
      (Node.assembler bindings extensions (some limit)).build rpn = .ok made →
        made.depth ≤ limit) ∧
    ∀ (compiler : Compiler α) (text : String) (expression : Expression),
      compiler.expression text = .ok expression → expression.rpn = .ok rpn →
        ∀ token ∈ rpn, compiler.assembler.Counts token := by
  have written := balanced
  rw [← Rpn.map_lexical_token rpn] at written
  obtain ⟨tree, saturated, rfl⟩ := exists_of_balance written
  refine ⟨⟨tree, saturated, rfl, fun assembler counted limit => ?_⟩, ?_, ?_⟩
  · have limited := build_isLimited saturated counted limit
    exact ⟨limited.eq, fun deep => limited.fails (Nat.not_le.mpr deep)⟩
  · intro bindings extensions limit made counted plain built
    have below : made.depth ≤ tree.depth :=
      depth_of_descend saturated plain ((build_eq_descend saturated counted).symm.trans built)
    refine below.trans (not_lt.mp fun deep => ?_)
    obtain ⟨reason, failed, _⟩ := (build_isLimited saturated counted limit).fails (by omega)
    have both : Except.error reason = Except.ok made := failed.symm.trans built
    contradiction
  · intro compiler text expression made ordered token member
    exact ((Compiler.rpn_wellFormed made ordered).2.1 token member).counts

/-- `-(+x)^(1 + 2)` is four levels deep, and `-x^3` that comes of it three. -/
theorem build_withLimit_of_power :
    let rpn := [Token.var "x", .operator ⟨"+", 1, false, 5000⟩, .number 1, .number 2,
      .operator ⟨"+", 2, true, 500⟩, .operator ⟨"^", 2, false, 10000⟩,
      .operator ⟨"-", 1, false, 5000⟩]
    let assembler := Node.assembler [⟨"x", (1 : Float)⟩] {} none
    Rpn.balance rpn = .ok () ∧ (∀ token ∈ rpn, assembler.Counts token) ∧
      (assembler.withLimit (some 4)).build rpn =
        .ok (.negation (.power (.var "x") (.constant (1 + 2)))) ∧
      (∀ token ∈ rpn, ¬ assembler.Expands token) ∧
      (Node.negation (.power (.var "x") (.constant (1 + 2))) : Node Float).depth ≤ 4 ∧
      ∃ reason, (assembler.withLimit (some 3)).build rpn = .error reason := by
  intro rpn assembler
  have balanced : Rpn.balance rpn = .ok () := rfl
  have counted : ∀ token ∈ rpn, assembler.Counts token := by
    have admitted : ∀ token ∈ rpn, assembler.Admits token := by simp [rpn, Admits]
    exact fun token member => (admitted token member).counts
  have plain : ∀ token ∈ rpn, ¬ assembler.Expands token := by
    simp [rpn, assembler, Expands, customOperator?, Node.assembler, Extensions.operator?]
  obtain ⟨⟨tree, saturated, written, limits⟩, shallow, -⟩ :=
    @build_withLimit Float (Node Float) _ _ balanced
  have depth : tree.depth = 4 := by
    have decoded := ofRpn_postorder saturated
    rw [written] at decoded
    obtain rfl := List.singleton_inj.mp decoded.symm
    rfl
  have built : (assembler.withLimit (some 4)).build rpn =
      .ok (.negation (.power (.var "x") (.constant (1 + 2)))) := by
    rw [(limits assembler counted 4).1 (by omega)]
    rfl
  obtain ⟨reason, failed, -⟩ := (limits assembler counted 3).2 (by omega)
  exact ⟨balanced, counted, built, plain, shallow _ _ 4 _ counted plain built, reason, failed⟩

end Assembler

end Formula
