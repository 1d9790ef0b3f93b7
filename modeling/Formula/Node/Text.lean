import Formula.Node.Basic
import Formula.Scalar.Text

namespace Formula

/-! Expressions as formulas, with parentheses only where precedence asks for them. -/

namespace Node

variable {α : Type} [Numeral α]

/-- How strongly an expression holds together; a constant below zero begins with a sign. -/
def strength : Node α → Nat
  | binary .add _ _ | binary .sub _ _ => 1
  | binary .mul _ _ | binary .div _ _ => 2
  | negation _ => 3
  | power _ _ => 4
  | constant value => if Numeral.isBelowZero value then 3 else 5
  | var _ | call _ _ => 5

def grouped (needed : Bool) (text : String) : String := if needed then "(" ++ text ++ ")" else text

/-- Whether a right operand of the same strength keeps its parentheses. -/
def groupsRight : Arithmetic → Bool
  | .sub | .div => true
  | .add | .mul => false

def text : Node α → String
  | constant value => Numeral.constantText value
  | var name => name
  | negation operand => "-" ++ grouped (decide (operand.strength ≤ 3)) operand.text
  | call function operand => function.name ++ "(" ++ operand.text ++ ")"
  | binary operation left right =>
      let own := (binary operation left right).strength
      grouped (decide (left.strength < own)) left.text ++ " " ++ operation.symbol ++ " " ++
        grouped (decide (right.strength < own) || (groupsRight operation && right.strength == own))
          right.text
  | power base exponent =>
      grouped (decide (base.strength ≤ 4)) base.text ++ "^" ++
        grouped (decide (exponent.strength < 4)) exponent.text

end Node

end Formula
