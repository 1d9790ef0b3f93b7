namespace Formula

/-! Scalars: the numbers that constants and values of an expression are made of.

`Scalar` asks only for the operations that evaluation and differentiation use, so that it has
instances beside the machine numbers: a field, or the dual numbers over it.
-/

/-- The functions of one number that an expression can contain. -/
inductive Elementary where
  | acos | asin | atan | log | cos | sin | sqrt | tan | exp
deriving Repr, DecidableEq

namespace Elementary

def all : List Elementary := [acos, asin, atan, log, cos, sin, sqrt, tan, exp]

def name : Elementary → String
  | acos => "acos"
  | asin => "asin"
  | atan => "atan"
  | log => "log"
  | cos => "cos"
  | sin => "sin"
  | sqrt => "sqrt"
  | tan => "tan"
  | exp => "exp"

def named? (text : String) : Option Elementary := all.find? (·.name == text)

end Elementary

inductive Arithmetic where
  | add | sub | mul | div
deriving Repr, DecidableEq

namespace Arithmetic

def all : List Arithmetic := [add, sub, mul, div]

def symbol : Arithmetic → String
  | add => "+"
  | sub => "-"
  | mul => "*"
  | div => "/"

def ofSymbol? (text : String) : Option Arithmetic := all.find? (·.symbol == text)

end Arithmetic

/-- Numbers with the operations of an expression. `==` need not be reflexive, since not-a-number
differs from itself. -/
class Scalar (α : Type) extends Zero α, One α, Neg α, Add α, Sub α, Mul α, Div α, BEq α where
  elementary : Elementary → α → α
  power : α → α → α

namespace Scalar

variable {α : Type} [Scalar α]

def arithmetic : Arithmetic → α → α → α
  | .add, left, right => left + right
  | .sub, left, right => left - right
  | .mul, left, right => left * right
  | .div, left, right => left / right

def two : α := 1 + 1

def goldenRatio : α := (1 + elementary .sqrt (1 + 1 + 1 + 1 + 1)) / two

end Scalar

end Formula
