import Formula.Error
import Formula.Extension

namespace Formula

/-! Nodes from RPN.

The tokens are read from the last one, which is the root, so the operands of an application come in
from right to left. An application that still lacks operands is an open frame; the frames around
the next node lie innermost first, and their number is its depth.
-/

/-- The nodes to build: their constructors, and the value of a node without variables. -/
structure Target (α N : Type) where
  constant : α → N
  negation : N → N
  call : Elementary → N → N
  binary : Arithmetic → N → N → N
  power : N → N → N
  constantValue? : N → Option α

namespace Target

variable {α N : Type}

/-- A power whose exponent has no variable; the exponent becomes the constant that it is worth. -/
def constantPower (target : Target α N) (base exponent : N) : Except CompileError N :=
  match target.constantValue? exponent with
  | some value => .ok (target.power base (target.constant value))
  | none => .error .variableExponent

end Target

inductive Frame (N : Type) where
  | unary (finish : N → N)
  | right (finish : N → N → Except CompileError N)
  | left (finish : N → N → Except CompileError N) (second : N)
  /-- Lacks one operand and `more` before it. -/
  | arguments (expand : List N → N) (more : Nat) (read : List N)

inductive Beginning (N : Type) where
  | node (complete : N)
  | frame (opened : Frame N)
  | nothing

/-- How far a tree has come. -/
inductive Progress (N : Type) where
  | reading (frames : List (Frame N))
  | complete (root : N)

/-- Give a complete node to the innermost frame, and so on outwards while frames become complete. -/
def Frame.supply {N : Type} (node : N) : List (Frame N) → Except CompileError (Progress N)
  | [] => .ok (.complete node)
  | .unary finish :: frames => supply (finish node) frames
  | .right finish :: frames => .ok (.reading (.left finish node :: frames))
  | .left finish second :: frames =>
      match finish node second with
      | .ok whole => supply whole frames
      | .error reason => .error reason
  | .arguments expand 0 read :: frames => supply (expand (node :: read)) frames
  | .arguments expand (more + 1) read :: frames =>
      .ok (.reading (.arguments expand more (node :: read) :: frames))

/-- What RPN is built with: the nodes, the variables by name, the extensions and the depth limit. -/
structure Assembler (α N : Type) where
  target : Target α N
  boundNode? : String → Option N
  extensions : Extensions N := {}
  maxDepth : Option Nat := none

namespace Assembler

variable {α N : Type}

/-- The expansion of so many operands: complete at once if there are none. -/
def expansion (expand : List N → N) : (operands : Nat) → Beginning N
  | 0 => .node (expand [])
  | more + 1 => .frame (.arguments expand more [])

/-- The node of a name: the variable bound to it, else the constant. -/
def variableNode [Numeral α] (assembler : Assembler α N) (name : String) :
    Except CompileError N :=
  match assembler.boundNode? name with
  | some node => .ok node
  | none =>
      match NamedConstant.named? name with
      | some constant => .ok (assembler.target.constant constant.value)
      | none => .error (.unknownVariable name)

/-- A call: an extension of that name, else an elementary function of one argument. -/
def functionBeginning (assembler : Assembler α N) (function : FunctionSymbol) :
    Except CompileError (Beginning N) :=
  match assembler.extensions.function? function.name with
  | some custom => .ok (expansion custom.expand function.arity)
  | none =>
      match Elementary.named? function.name with
      | some elementary => .ok (.frame (.unary (assembler.target.call elementary)))
      | none => .error (.unsupportedFunction function.name)

/-- The built-in meaning of an operator, if it has one. -/
def builtinFrame? (target : Target α N) (operator : Operator) : Option (Frame N) :=
  match operator.operands with
  | 1 =>
      if operator.symbol = "-" then some (.unary target.negation)
      else if operator.symbol = "+" then some (.unary id)
      else none
  | 2 =>
      if operator.symbol = "^" then some (.right target.constantPower)
      else (Arithmetic.ofSymbol? operator.symbol).map fun operation =>
        .right fun left right => .ok (target.binary operation left right)
  | _ => none

/-- The extension that an operator token uses: the one of its symbol, if it takes as many
operands. -/
def customOperator? (assembler : Assembler α N) (operator : Operator) :
    Option (CustomOperator N) :=
  (assembler.extensions.operator? operator.symbol).filter
    (·.definition.operands == operator.operands)

/-- An operator: the extension, else the built-in meaning. -/
def operatorBeginning (assembler : Assembler α N) (operator : Operator) :
    Except CompileError (Beginning N) :=
  match assembler.customOperator? operator with
  | some custom => .ok (expansion custom.expand operator.operands)
  | none =>
      match builtinFrame? assembler.target operator with
      | some frame => .ok (.frame frame)
      | none => .error (.unsupportedOperator operator.symbol)

/-- What a token begins. Parentheses say nothing that the order of the tokens does not say. -/
def beginning [Numeral α] (assembler : Assembler α N) : Token → Except CompileError (Beginning N)
  | .number literal =>
      match Numeral.ofLiteral? literal with
      | some value => .ok (.node (assembler.target.constant value))
      | none => .error (.unrepresentable literal)
  | .var name => (assembler.variableNode name).map .node
  | .function function => assembler.functionBeginning function
  | .operator operator => assembler.operatorBeginning operator
  | .openParen | .closeParen => .ok .nothing
  | .comma => .error .strayComma

/-- Whether a node inside these frames would lie deeper than the limit. -/
def isTooDeep (assembler : Assembler α N) (frames : List (Frame N)) : Bool :=
  assembler.maxDepth.any (decide <| · < frames.length + 1)

/-- Take in one token. The depth is looked at before the token. -/
def step [Numeral α] (assembler : Assembler α N) (progress : Progress N) (token : Token) :
    Except CompileError (Progress N) :=
  match progress with
  | .complete _ => .error .trailingTokens
  | .reading frames =>
      if assembler.isTooDeep frames then .error .depthExceeded
      else
        match assembler.beginning token with
        | .error reason => .error reason
        | .ok (.node node) => Frame.supply node frames
        | .ok (.frame frame) => .ok (.reading (frame :: frames))
        | .ok .nothing => .ok progress

def conclude (assembler : Assembler α N) : Progress N → Except CompileError N
  | .complete root => .ok root
  | .reading frames =>
      .error (if assembler.isTooDeep frames then .depthExceeded else .unexpectedEnd)

def build [Numeral α] (assembler : Assembler α N) (rpn : List Token) : Except CompileError N := do
  assembler.conclude (← rpn.reverse.foldlM assembler.step (.reading []))

end Assembler

end Formula
