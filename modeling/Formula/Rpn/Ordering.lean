import Formula.Error
import Formula.Token.Located

namespace Formula

/-! From the order in which a formula is written to RPN, by precedence and associativity.

Items that wait for their operands are `pending`, the latest first: operators, open parentheses,
and below its parenthesis the function that is being called. What a new item releases goes to the
output before all later items.
-/

namespace Operator

/-- Whether an operator that enters releases a pending one. Of equal precedence the one that groups
to the left does; a unary operator never releases an operator that still lacks its right operand. -/
def releases (entering pending : Operator) : Bool :=
  (pending.isUnary || !entering.isUnary) &&
    (decide (entering.precedence < pending.precedence) ||
      (entering.leftAssociative && entering.precedence == pending.precedence))

end Operator

namespace Rpn

variable {τ : Type} [Lexical τ]

def isOpening (item : τ) : Bool := (Lexical.token item).isOpenParen

/-- The pending items inside the innermost open parenthesis. -/
def inside (pending : List τ) : List τ := pending.takeWhile (!isOpening ·)

/-- The innermost open parenthesis and the pending items around it. -/
def fromOpening (pending : List τ) : List τ := pending.dropWhile (!isOpening ·)

theorem inside_append_fromOpening (pending : List τ) :
    inside pending ++ fromOpening pending = pending :=
  List.takeWhile_append_dropWhile

/-- The function on top of the pending items, if one is there. -/
def called (pending : List τ) : List τ :=
  (pending.take 1).filter fun item => (Lexical.token item).isFunction

def isReleasedBy (entering : Operator) (item : τ) : Bool :=
  match Lexical.token item with
  | .operator pending => entering.releases pending
  | _ => false

/-- The items in RPN order, given the pending ones. -/
def order : (pending : List τ) → List τ → Except SyntaxError (List τ)
  | pending, [] => if pending.any isOpening then .error .mismatchedParentheses else .ok pending
  | pending, item :: rest =>
      match Lexical.token item with
      | .number _ | .var _ => (order pending rest).map (item :: ·)
      | .function _ | .openParen => order (item :: pending) rest
      | .operator entering =>
          (order (item :: pending.dropWhile (isReleasedBy entering)) rest).map
            (pending.takeWhile (isReleasedBy entering) ++ ·)
      | .comma =>
          if (called ((fromOpening pending).drop 1)).isEmpty then .error .misplacedComma
          else (order (fromOpening pending) rest).map (inside pending ++ ·)
      | .closeParen =>
          match fromOpening pending with
          | [] => .error .mismatchedParentheses
          | _ :: around =>
              (order (around.drop (called around).length) rest).map
                (inside pending ++ called around ++ ·)

end Rpn

end Formula
