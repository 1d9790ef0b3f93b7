import Mathlib
import Formula.Assembly

namespace Formula

/-! The stack machine for RPN, and that assembly agrees with it.

The machine reads from the first token and keeps the nodes that wait for their operator on a stack;
assembly reads from the last token and keeps the applications that wait for their operands. Both see
the same tokens from opposite ends. What joins them at every point in between is `completed`: the
tree that the open frames make of the nodes on the stack.
-/

variable {α N : Type}

namespace Assembler

/-- What a built-in operator makes of its operands, in the order of writing. An exponent without a
value of its own is refused, and every other one becomes the constant that it is worth. -/
def builtinNode (target : Target α N) (symbol : String) : List N → Except CompileError N
  | [operand] =>
      if symbol = "-" then .ok (target.negation operand)
      else if symbol = "+" then .ok operand
      else .error (.unsupportedOperator symbol)
  | [left, right] =>
      if symbol = "^" then
        match target.constantValue? right with
        | some value => .ok (target.power left (target.constant value))
        | none => .error .variableExponent
      else
        match Arithmetic.ofSymbol? symbol with
        | some operation => .ok (target.binary operation left right)
        | none => .error (.unsupportedOperator symbol)
  | _ => .error (.unsupportedOperator symbol)

/-- What a token makes of its operands, in the order of writing. -/
def node [Numeral α] (assembler : Assembler α N) : Token → List N → Except CompileError N
  | .number literal, _ =>
      match Numeral.ofLiteral? literal with
      | some value => .ok (assembler.target.constant value)
      | none => .error (.unrepresentable literal)
  | .var name, _ =>
      match assembler.boundNode? name, NamedConstant.named? name with
      | some bound, _ => .ok bound
      | none, some constant => .ok (assembler.target.constant constant.value)
      | none, none => .error (.unknownVariable name)
  | .function function, operands =>
      match assembler.extensions.function? function.name with
      | some custom => .ok (custom.expand operands)
      | none =>
          match Elementary.named? function.name, operands with
          | some elementary, [operand] => .ok (assembler.target.call elementary operand)
          | _, _ => .error (.unsupportedFunction function.name)
  | .operator operator, operands =>
      match assembler.extensions.operator? operator.symbol with
      | some custom =>
          if custom.definition.operands = operator.operands then .ok (custom.expand operands)
          else builtinNode assembler.target operator.symbol operands
      | none => builtinNode assembler.target operator.symbol operands
  | .openParen, _ | .closeParen, _ | .comma, _ => .error .strayComma

/-- One token of the stack machine: it takes its operands from the top, the last one first, and
leaves one node. -/
def push [Numeral α] (assembler : Assembler α N) (stack : List N) (token : Token) :
    Except CompileError (List N) :=
  if stack.length < token.operands then .error (.malformed (.missingOperands token))
  else (assembler.node token (stack.take token.operands).reverse).map
    (· :: stack.drop token.operands)

/-- The stack machine, from the first token to the last. -/
def run [Numeral α] (assembler : Assembler α N) (rpn : List Token) :
    Except CompileError (List N) :=
  rpn.foldlM assembler.push []

/-- The token can stand in RPN, and if it names a built-in function that is not replaced, it has the
arity of that function. -/
def Admits (assembler : Assembler α N) : Token → Prop
  | .number _ | .var _ | .operator _ => True
  | .function function =>
      assembler.extensions.function? function.name = none →
        ∀ builtin ∈ FunctionSymbol.builtin? function.name, function.arity = builtin.arity
  | .openParen | .closeParen | .comma => False

end Assembler

namespace Frame

def lacks : Frame N → Nat
  | .unary _ | .left _ _ => 1
  | .right _ => 2
  | .arguments _ more _ => more + 1

/-- What the frame makes of the operands that it lacks, in the order of writing. -/
def closed : Frame N → List N → Except CompileError N
  | .unary finish, [operand] => .ok (finish operand)
  | .right finish, [first, second] => finish first second
  | .left finish second, [first] => finish first second
  | .arguments expand _ read, operands => .ok (expand (operands ++ read))
  | _, _ => .error .unexpectedEnd

end Frame

/-- The tree that results if the frames take their operands from a stack and none is left over. -/
def completed : Progress N → List N → Option N
  | .complete root, [] => some root
  | .complete _, _ :: _ => none
  | .reading _, [] => none
  | .reading frames, node :: stack =>
      match Frame.supply node frames with
      | .ok next => completed next stack
      | .error _ => none

theorem completed_reading_nil_eq_some {stack : List N} {tree : N} :
    completed (.reading []) stack = some tree ↔ stack = [tree] := by
  match stack with
  | [] => simp [completed]
  | [node] => simp [completed, Frame.supply]
  | _ :: _ :: _ => simp [completed, Frame.supply]

/-- A frame on top of others takes its operands and hands what it makes of them to the others. -/
theorem completed_frame (frame : Frame N) (frames : List (Frame N)) (stack : List N) :
    completed (.reading (frame :: frames)) stack =
      if stack.length < frame.lacks then none
      else (frame.closed (stack.take frame.lacks).reverse).toOption.bind fun whole =>
        completed (.reading frames) (whole :: stack.drop frame.lacks) := by
  cases frame with
  | unary finish =>
      cases stack with
      | nil => rfl
      | cons operand stack => simp [completed, Frame.supply, Frame.lacks, Frame.closed, Except.toOption]
  | right finish =>
      match stack with
      | [] => rfl
      | [_] => rfl
      | right :: left :: stack =>
          have enough : ¬ stack.length + 1 + 1 < 2 := by omega
          cases made : finish left right <;>
            simp [completed, Frame.supply, Frame.lacks, Frame.closed, Except.toOption, made, enough]
  | left finish right =>
      cases stack with
      | nil => rfl
      | cons left stack =>
          cases made : finish left right <;>
            simp [completed, Frame.supply, Frame.lacks, Frame.closed, Except.toOption, made]
  | arguments expand more read =>
      induction more generalizing read stack with
      | zero =>
          cases stack with
          | nil => rfl
          | cons operand stack =>
              simp [completed, Frame.supply, Frame.lacks, Frame.closed, Except.toOption]
      | succ more ih =>
          cases stack with
          | nil => simp [completed, Frame.lacks]
          | cons operand stack =>
              have supplied :
                  completed (.reading (.arguments expand (more + 1) read :: frames))
                      (operand :: stack) =
                    completed (.reading (.arguments expand more (operand :: read) :: frames))
                      stack := rfl
              rw [supplied, ih stack (operand :: read)]
              simp only [Frame.lacks, Frame.closed, List.length_cons, List.take_succ_cons,
                List.drop_succ_cons, List.reverse_cons, List.append_assoc, List.cons_append,
                List.nil_append, Nat.add_lt_add_iff_right]
              by_cases short : stack.length < more + 1
              · simp only [short, ↓reduceIte]
              · simp only [short, ↓reduceIte]

namespace Assembler

theorem builtin?_of_named {name : String} {elementary : Elementary}
    (named : Elementary.named? name = some elementary) :
    FunctionSymbol.builtin? name = some ⟨name, 1⟩ := by
  have isName := List.find?_some named
  obtain rfl : elementary.name = name := by simpa using isName
  cases elementary <;> decide

/-- What a token begins makes of as many operands as the token takes what the token does. -/
def Begins (outcome : List N → Except CompileError N) (count : Nat) :
    Except CompileError (Beginning N) → Prop
  | .ok (.node complete) => count = 0 ∧ outcome [] = .ok complete
  | .ok (.frame frame) =>
      frame.lacks = count ∧
        ∀ operands, operands.length = count → outcome operands = frame.closed operands
  | .ok .nothing => False
  | .error _ => ∀ operands, operands.length = count → ∃ reason, outcome operands = .error reason

/-- The frame of a built-in operator makes of its operands what the operator does. -/
theorem begins_builtinFrame? (target : Target α N) (operator : Operator) :
    Begins (builtinNode target operator.symbol) operator.operands
      (match builtinFrame? target operator with
      | some frame => .ok (.frame frame)
      | none => .error (.unsupportedOperator operator.symbol)) := by
  obtain ⟨symbol, arity, leftAssociative, precedence⟩ := operator
  match arity with
  | 0 =>
      intro operands count
      obtain rfl := List.length_eq_zero_iff.mp count
      exact ⟨_, rfl⟩
  | 1 =>
      by_cases minus : symbol = "-"
      · simp [builtinFrame?, minus, Begins, Frame.lacks, List.length_eq_one_iff, builtinNode,
          Frame.closed]
      · by_cases plus : symbol = "+" <;>
          simp [builtinFrame?, minus, plus, Begins, Frame.lacks, List.length_eq_one_iff, builtinNode,
            Frame.closed]
  | 2 =>
      by_cases caret : symbol = "^"
      · simp only [builtinFrame?, caret, ↓reduceIte, Begins]
        refine ⟨rfl, fun operands count => ?_⟩
        obtain ⟨base, exponent, rfl⟩ := List.length_eq_two.mp count
        cases worth : target.constantValue? exponent <;>
          simp [builtinNode, Frame.closed, Target.constantPower, worth]
      · cases meaning : Arithmetic.ofSymbol? symbol <;>
          simp only [builtinFrame?, caret, ↓reduceIte, meaning, Option.map, Begins]
        · intro operands count
          obtain ⟨first, second, rfl⟩ := List.length_eq_two.mp count
          simp [builtinNode, caret, meaning]
        · refine ⟨rfl, fun operands count => ?_⟩
          obtain ⟨first, second, rfl⟩ := List.length_eq_two.mp count
          simp [builtinNode, caret, meaning, Frame.closed]
  | more + 3 =>
      intro operands count
      match operands with
      | _ :: _ :: _ :: _ => exact ⟨_, rfl⟩

theorem begins_expansion (expand : List N → N) (count : Nat) :
    Begins (fun operands => .ok (expand operands)) count (.ok (expansion expand count)) := by
  cases count with
  | zero => exact ⟨rfl, rfl⟩
  | succ more => exact ⟨rfl, fun operands _ => by simp [Frame.closed]⟩

theorem node_var [Numeral α] (assembler : Assembler α N) (name : String) (operands : List N) :
    assembler.node (.var name) operands = assembler.variableNode name := by
  cases bound : assembler.boundNode? name <;> cases named : NamedConstant.named? name <;>
    simp [node, variableNode, bound, named]

theorem node_operator [Numeral α] (assembler : Assembler α N) (operator : Operator)
    (operands : List N) :
    assembler.node (.operator operator) operands =
      match assembler.customOperator? operator with
      | some custom => .ok (custom.expand operands)
      | none => builtinNode assembler.target operator.symbol operands := by
  cases found : assembler.extensions.operator? operator.symbol with
  | none => simp [node, customOperator?, found]
  | some custom =>
      by_cases same : custom.definition.operands = operator.operands <;>
        simp [node, customOperator?, found, same, Option.filter]

theorem begins_beginning [Numeral α] {assembler : Assembler α N} {token : Token}
    (admitted : assembler.Admits token) :
    Begins (assembler.node token) token.operands (assembler.beginning token) := by
  cases token with
  | number literal =>
      cases read : (Numeral.ofLiteral? literal : Option α) <;>
        simp [beginning, node, read, Begins, Token.operands]
  | var name =>
      cases found : assembler.variableNode name <;>
        simp [beginning, node_var, found, Begins, Token.operands, Except.map]
  | function function =>
      cases custom : assembler.extensions.function? function.name with
      | some extension =>
          have made : assembler.node (.function function) = (.ok <| extension.expand ·) := by
            funext operands
            simp [node, custom]
          simpa [beginning, functionBeginning, made, custom, Token.operands] using
            begins_expansion extension.expand function.arity
      | none =>
          cases named : Elementary.named? function.name with
          | some elementary =>
              have arity : function.arity = 1 :=
                admitted custom _ (builtin?_of_named named)
              simp only [beginning, functionBeginning, custom, named, Begins, Token.operands, arity]
              refine ⟨rfl, fun operands count => ?_⟩
              obtain ⟨operand, rfl⟩ := List.length_eq_one_iff.mp count
              simp [node, custom, named, Frame.closed]
          | none =>
              simp [beginning, functionBeginning, custom, named, Begins, node]
  | operator operator =>
      cases custom : assembler.customOperator? operator with
      | some extension =>
          have made : assembler.node (.operator operator) = (.ok <| extension.expand ·) := by
            funext operands
            rw [node_operator, custom]
          simpa [beginning, operatorBeginning, made, custom, Token.operands] using
            begins_expansion extension.expand operator.operands
      | none =>
          have made : assembler.node (.operator operator) =
              builtinNode assembler.target operator.symbol := by
            funext operands
            rw [node_operator, custom]
          have begins := begins_builtinFrame? assembler.target operator
          cases opened : builtinFrame? assembler.target operator <;>
            simpa [beginning, operatorBeginning, made, custom, opened, Token.operands] using begins
  | openParen => exact admitted.elim
  | closeParen => exact admitted.elim
  | comma => exact admitted.elim

variable [Numeral α] {assembler : Assembler α N}

/-- Of these operands the token makes this node, by the meaning that it has without extensions. -/
inductive Forms (assembler : Assembler α N) : Token → List N → N → Prop
  | number {literal : Float} {value : α} {operands : List N}
      (read : Numeral.ofLiteral? literal = some value) :
      Forms assembler (.number literal) operands (assembler.target.constant value)
  | bound {name : String} {node : N} {operands : List N}
      (bound : assembler.boundNode? name = some node) :
      Forms assembler (.var name) operands node
  | named {name : String} {constant : NamedConstant} {operands : List N}
      (free : assembler.boundNode? name = none)
      (named : NamedConstant.named? name = some constant) :
      Forms assembler (.var name) operands (assembler.target.constant constant.value)
  | call {function : FunctionSymbol} {elementary : Elementary} {operand : N}
      (named : Elementary.named? function.name = some elementary) :
      Forms assembler (.function function) [operand] (assembler.target.call elementary operand)
  | minus {operator : Operator} {operand : N} (written : operator.symbol = "-") :
      Forms assembler (.operator operator) [operand] (assembler.target.negation operand)
  | plus {operator : Operator} {operand : N} (written : operator.symbol = "+") :
      Forms assembler (.operator operator) [operand] operand
  | binary {operator : Operator} {operation : Arithmetic} {left right : N}
      (meaning : Arithmetic.ofSymbol? operator.symbol = some operation) :
      Forms assembler (.operator operator) [left, right]
        (assembler.target.binary operation left right)
  | power {operator : Operator} {base exponent : N} {value : α} (written : operator.symbol = "^")
      (worth : assembler.target.constantValue? exponent = some value) :
      Forms assembler (.operator operator) [base, exponent]
        (assembler.target.power base (assembler.target.constant value))

theorem builtinNode_eq_ok_iff {operator : Operator} {operands : List N} {made : N} :
    builtinNode assembler.target operator.symbol operands = .ok made ↔
      assembler.Forms (.operator operator) operands made := by
  constructor
  · intro built
    match operands with
    | [] => simp [builtinNode] at built
    | [operand] =>
        simp only [builtinNode] at built
        split at built
        case isTrue minus =>
          cases built
          exact .minus minus
        case isFalse =>
          split at built
          case isTrue plus =>
            cases built
            exact .plus plus
          case isFalse => contradiction
    | [left, right] =>
        simp only [builtinNode] at built
        split at built
        case isTrue caret =>
          split at built
          case h_1 value worth =>
            cases built
            exact .power caret worth
          case h_2 => contradiction
        case isFalse =>
          split at built
          case h_1 operation meaning =>
            cases built
            exact .binary meaning
          case h_2 => contradiction
    | _ :: _ :: _ :: _ => simp [builtinNode] at built
  · intro forms
    cases forms with
    | minus written => simp [builtinNode, written]
    | plus written => simp [builtinNode, written]
    | binary meaning =>
        have other : operator.symbol ≠ "^" := by
          intro caret
          simp [caret, Arithmetic.ofSymbol?, Arithmetic.all, Arithmetic.symbol] at meaning
        simp [builtinNode, other, meaning]
    | power written worth => simp [builtinNode, written, worth]

/-- Without extensions a token makes what it forms, and fails if it forms nothing. -/
theorem node_eq_ok_iff (plain : assembler.extensions = {}) {token : Token} {operands : List N}
    {made : N} : assembler.node token operands = .ok made ↔ assembler.Forms token operands made := by
  cases token with
  | number literal =>
      simp only [node]
      constructor
      · intro built
        split at built
        case h_1 value read =>
          cases built
          exact .number read
        case h_2 => contradiction
      · rintro ⟨read⟩
        simp [read]
  | var name =>
      simp only [node_var, variableNode]
      constructor
      · intro built
        split at built
        case h_1 whole bound =>
          cases built
          exact .bound bound
        case h_2 free =>
          split at built
          case h_1 constant named =>
            cases built
            exact .named free named
          case h_2 => contradiction
      · intro forms
        cases forms with
        | bound bound => simp [bound]
        | named free named => simp [free, named]
  | function function =>
      have noneCustom : assembler.extensions.function? function.name = none := by
        rw [plain]
        rfl
      simp only [node, noneCustom]
      constructor
      · intro built
        split at built
        case h_1 elementary operand named =>
          cases built
          exact .call named
        case h_2 => contradiction
      · intro forms
        cases forms with
        | call named => simp [named]
  | operator operator =>
      have noneCustom : assembler.customOperator? operator = none := by
        rw [customOperator?, plain]
        rfl
      rw [node_operator, noneCustom]
      exact builtinNode_eq_ok_iff
  | openParen => exact ⟨fun built => by simp [node] at built, fun forms => by cases forms⟩
  | closeParen => exact ⟨fun built => by simp [node] at built, fun forms => by cases forms⟩
  | comma => exact ⟨fun built => by simp [node] at built, fun forms => by cases forms⟩

theorem push_eq_ok_iff {stack next : List N} {token : Token} :
    assembler.push stack token = .ok next ↔
      token.operands ≤ stack.length ∧
        ∃ made, assembler.node token (stack.take token.operands).reverse = .ok made ∧
          next = made :: stack.drop token.operands := by
  by_cases enough : token.operands ≤ stack.length
  · rw [push, if_neg (Nat.not_lt.mpr enough)]
    cases assembler.node token (stack.take token.operands).reverse <;>
      simp [Except.map, enough, eq_comm]
  · simp [push, Nat.not_le.mp enough, enough]

theorem push_of_short {stack : List N} {token : Token} (short : stack.length < token.operands) :
    (assembler.push stack token).toOption = none := by
  simp [push, short, Except.toOption]

theorem push_of_enough {stack : List N} {token : Token} (enough : ¬ stack.length < token.operands) :
    (assembler.push stack token).toOption =
      (assembler.node token (stack.take token.operands).reverse).toOption.map
        (· :: stack.drop token.operands) := by
  cases made : assembler.node token (stack.take token.operands).reverse <;>
    simp [push, enough, made, Except.map, Except.toOption]

theorem length_operands_of_enough {stack : List N} {count : Nat} (enough : ¬ stack.length < count) :
    (stack.take count).reverse.length = count := by
  simp only [List.length_reverse, List.length_take]
  omega

/-- One token moves from the tokens before the point of view to those after it: the frames that
assembly opens for it complete the stack as the frames before completed what the machine leaves. -/
theorem completed_step (unlimited : assembler.maxDepth = none) {token : Token}
    (admitted : assembler.Admits token) (progress : Progress N) (stack : List N) :
    (assembler.step progress token).toOption.bind (completed · stack) =
      (assembler.push stack token).toOption.bind (completed progress) := by
  cases progress with
  | complete root =>
      by_cases short : stack.length < token.operands
      · rw [push_of_short short]
        rfl
      · rw [push_of_enough short]
        cases (assembler.node token (stack.take token.operands).reverse).toOption <;> rfl
  | reading frames =>
      have shallow : assembler.isTooDeep frames = false := by simp [isTooDeep, unlimited]
      have begins := begins_beginning admitted
      cases opened : assembler.beginning token with
      | error reason =>
          rw [opened] at begins
          have stuck : (assembler.step (.reading frames) token).toOption = none := by
            simp [step, shallow, opened, Except.toOption]
          by_cases short : stack.length < token.operands
          · rw [stuck, push_of_short short]
            rfl
          · obtain ⟨cause, failed⟩ := begins _ (length_operands_of_enough short)
            rw [stuck, push_of_enough short, failed]
            rfl
      | ok beginning =>
          rw [opened] at begins
          cases beginning with
          | node complete =>
              obtain ⟨noOperands, made⟩ := begins
              have supplied : assembler.step (.reading frames) token = Frame.supply complete frames := by
                simp [step, shallow, opened]
              rw [supplied, push_of_enough (by omega), noOperands, List.take_zero, List.reverse_nil,
                made, List.drop_zero]
              cases outcome : Frame.supply complete frames <;>
                simp [Except.toOption, completed, outcome]
          | frame frame =>
              obtain ⟨count, agrees⟩ := begins
              have entered : (assembler.step (.reading frames) token).toOption =
                  some (.reading (frame :: frames)) := by
                simp [step, shallow, opened, Except.toOption]
              rw [entered, Option.bind_some, completed_frame, count]
              by_cases short : stack.length < token.operands
              · rw [if_pos short, push_of_short short]
                rfl
              · rw [if_neg short, push_of_enough short,
                  agrees _ (length_operands_of_enough short), Option.bind_map]
                rfl
          | nothing => exact begins.elim

theorem toOption_bind {ε β γ : Type} (first : Except ε β) (next : β → Except ε γ) :
    (first >>= next).toOption = first.toOption.bind fun value => (next value).toOption := by
  cases first <;> rfl

theorem bind_eq_ok_iff {ε β γ : Type} {first : Except ε β} {next : β → Except ε γ} {result : γ} :
    first >>= next = .ok result ↔ ∃ value, first = .ok value ∧ next value = .ok result := by
  cases first <;> simp [bind, Except.bind]

theorem eq_ok_iff_toOption {ε β : Type} {outcome : Except ε β} {value : β} :
    outcome = .ok value ↔ outcome.toOption = some value := by
  cases outcome <;> simp [Except.toOption]

theorem run_append_singleton (earlier : List Token) (token : Token) :
    assembler.run (earlier ++ [token]) = assembler.run earlier >>= (assembler.push · token) := by
  simp [run]

/-- Assembly of the tokens before the point of view, last one first, completes whatever the machine
leaves for them. -/
theorem toOption_foldlM_step (unlimited : assembler.maxDepth = none) (rpn : List Token)
    (admitted : ∀ token ∈ rpn, assembler.Admits token) (progress : Progress N) :
    (rpn.reverse.foldlM assembler.step progress >>= assembler.conclude).toOption =
      (assembler.run rpn).toOption.bind (completed progress) := by
  induction rpn using List.reverseRecOn generalizing progress with
  | nil => cases progress <;> rfl
  | append_singleton earlier token ih =>
      have before := ih fun item member => admitted item (by simp [member])
      have joined := completed_step unlimited (admitted token (by simp)) progress
      rw [List.reverse_append, List.reverse_singleton, List.singleton_append, List.foldlM_cons,
        bind_assoc, toOption_bind, run_append_singleton, toOption_bind, Option.bind_assoc]
      simp only [before, ← joined]
      rw [Option.bind_comm]

theorem build_eq_ok_iff (unlimited : assembler.maxDepth = none) {rpn : List Token}
    (admitted : ∀ token ∈ rpn, assembler.Admits token) (tree : N) :
    assembler.build rpn = .ok tree ↔ assembler.run rpn = .ok [tree] := by
  have agree := toOption_foldlM_step unlimited rpn admitted (.reading [])
  rw [eq_ok_iff_toOption, eq_ok_iff_toOption, build, agree, Option.bind_eq_some_iff]
  constructor
  · rintro ⟨stack, ran, whole⟩
    rw [ran, completed_reading_nil_eq_some.mp whole]
  · intro ran
    exact ⟨[tree], ran, completed_reading_nil_eq_some.mpr rfl⟩

theorem step_unlimited {progress next : Progress N} {token : Token}
    (stepped : assembler.step progress token = .ok next) :
    ({ assembler with maxDepth := none } : Assembler α N).step progress token = .ok next := by
  cases progress with
  | complete root => contradiction
  | reading frames =>
      simp only [step] at stepped
      split at stepped
      · contradiction
      · cases token <;> exact stepped

theorem foldlM_step_unlimited {tokens : List Token} {progress last : Progress N}
    (ran : tokens.foldlM assembler.step progress = .ok last) :
    tokens.foldlM ({ assembler with maxDepth := none } : Assembler α N).step progress =
      .ok last := by
  induction tokens generalizing progress with
  | nil => exact ran
  | cons token rest ih =>
      rw [List.foldlM_cons, bind_eq_ok_iff] at ran ⊢
      obtain ⟨next, stepped, onward⟩ := ran
      exact ⟨next, step_unlimited stepped, ih onward⟩

/-- The depth limit decides whether there is a tree, but not which one. -/
theorem build_unlimited {rpn : List Token} {tree : N} (built : assembler.build rpn = .ok tree) :
    ({ assembler with maxDepth := none } : Assembler α N).build rpn = .ok tree := by
  rw [build, bind_eq_ok_iff] at built ⊢
  obtain ⟨last, ran, concluded⟩ := built
  refine ⟨last, foldlM_step_unlimited ran, ?_⟩
  cases last with
  | complete root => exact concluded
  | reading frames => contradiction

end Assembler

end Formula
