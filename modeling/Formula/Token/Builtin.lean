import Formula.Token.Basic

namespace Formula

/-! The operators, functions and constants that every formula can use. -/

/-- Whether a character may stand in the symbol of an operator. -/
def isOperatorChar (character : Char) : Bool := "+-*/^%!#§$&;:~<>|=".toList.contains character

namespace Operator

def times : Operator := ⟨"*", 2, true, 1000⟩

/-- The built-in operators. Powers group to the right; signs before an operand bind tighter than
products and looser than powers. -/
def builtins : List Operator :=
  [⟨"+", 2, true, 500⟩, ⟨"-", 2, true, 500⟩, times, ⟨"/", 2, true, 1000⟩, ⟨"%", 2, true, 1000⟩,
   ⟨"^", 2, false, 10000⟩, ⟨"-", 1, false, 5000⟩, ⟨"+", 1, false, 5000⟩]

def builtin? (symbol : String) (operands : Nat) : Option Operator :=
  builtins.find? fun operator => operator.symbol == symbol && operator.operands == operands

end Operator

namespace FunctionSymbol

def unaryNames : List String :=
  ["sin", "cos", "tan", "cot", "log", "log2", "log10", "log1p", "abs", "acos", "asin", "atan",
   "cbrt", "floor", "sinh", "sqrt", "cosh", "tanh", "ceil", "exp", "expm1", "signum", "csc",
   "sec", "csch", "sech", "coth", "toradian", "todegree"]

def binaryNames : List String := ["pow", "logb"]

def builtin? (name : String) : Option FunctionSymbol :=
  if unaryNames.contains name then some ⟨name, 1⟩
  else if binaryNames.contains name then some ⟨name, 2⟩
  else none

end FunctionSymbol

inductive NamedConstant where
  | pi | euler | goldenRatio
deriving Repr, DecidableEq

namespace NamedConstant

/-- Names that stand for a constant in every formula. -/
def names : List String := ["pi", "π", "e", "φ"]

def named? (name : String) : Option NamedConstant :=
  if name = "pi" ∨ name = "π" then some pi
  else if name = "e" then some euler
  else if name = "φ" then some goldenRatio
  else none

def isName (name : String) : Bool := names.contains name

def value {α : Type} [Numeral α] : NamedConstant → α
  | pi => Numeral.pi
  | euler => Numeral.euler
  | goldenRatio => Scalar.goldenRatio

end NamedConstant

end Formula
