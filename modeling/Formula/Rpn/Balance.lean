import Formula.Error

namespace Formula

/-! The count of values that RPN leaves: every token takes its operands and leaves one value. -/

namespace Rpn

/-- Whether tokens in RPN, after `count` values, leave exactly one value. -/
def balanceFrom : (count : Nat) → List Token → Except SyntaxError Unit
  | count, [] => if 1 < count then .error (.tooManyOperands count) else .ok ()
  | count, token :: rest =>
      if count < token.operands then .error (.missingOperands token)
      else balanceFrom (count - token.operands + 1) rest

/-- Whether tokens in RPN make exactly one value. -/
def balance (tokens : List Token) : Except SyntaxError Unit :=
  if tokens.isEmpty then .error .empty else balanceFrom 0 tokens

end Rpn

end Formula
