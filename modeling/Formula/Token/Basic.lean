import Formula.Scalar.Text
import Formula.Span

namespace Formula

/-! The units that formulas are made of: numbers, names, operators, functions, parentheses and
commas.
-/

/-- An operator as it may be written: its symbol, how many operands it takes, how it groups with
operators of its own precedence, and how strongly it binds. -/
structure Operator where
  symbol : String
  operands : Nat
  leftAssociative : Bool
  precedence : Int
deriving Repr, DecidableEq

namespace Operator

def isUnary (operator : Operator) : Bool := operator.operands == 1

/-- A unary operator that groups to the right stands before its operand. -/
def isPrefix (operator : Operator) : Bool := operator.isUnary && !operator.leftAssociative

/-- A unary operator that groups to the left stands after its operand. -/
def isSuffix (operator : Operator) : Bool := operator.isUnary && operator.leftAssociative

end Operator

/-- A function as it may be called: its name and the number of its arguments. -/
structure FunctionSymbol where
  name : String
  arity : Nat
deriving Repr, DecidableEq

inductive Token where
  | number (value : Float)
  | var (name : String)
  | operator (definition : Operator)
  | function (definition : FunctionSymbol)
  | openParen
  | closeParen
  | comma
deriving DecidableEq

namespace Token

/-- How many values the token takes when it stands in RPN. -/
def operands : Token → Nat
  | .operator definition => definition.operands
  | .function definition => definition.arity
  | _ => 0

/-- The token as a formula would write it. -/
def text : Token → String
  | .number value => Numeral.plainText value
  | .var name => name
  | .operator definition => definition.symbol
  | .function definition => definition.name
  | .openParen => "("
  | .closeParen => ")"
  | .comma => ","

def isOpenParen : Token → Bool
  | .openParen => true
  | _ => false

def isFunction : Token → Bool
  | .function _ => true
  | _ => false

/-- Whether an operand is complete after the token. -/
def endsOperand : Token → Bool
  | .number _ | .var _ | .closeParen => true
  | .operator definition => definition.isSuffix
  | .function _ | .openParen | .comma => false

end Token

end Formula
