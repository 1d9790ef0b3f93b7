import Formula.Token.Located

namespace Formula

/-! Neighbours that multiply: `2x` is `2 * x`. -/

namespace Token

/-- Whether a product is meant between two neighbours: the first completes an operand and the
second begins one. Two numbers side by side are a mistake and get no product. -/
def multipliesWith (left right : Token) : Bool :=
  left.endsOperand &&
    match right with
    | .var _ | .function _ | .openParen => true
    | .number _ => match left with
      | .number _ => false
      | _ => true
    | .operator _ | .closeParen | .comma => false

end Token

/-- The items with a product between all neighbours that multiply. -/
def insertProducts {τ : Type} [Lexical τ] : List τ → List τ
  | [] => []
  | [last] => [last]
  | left :: right :: rest =>
      if (Lexical.token left).multipliesWith (Lexical.token right) then
        left :: Lexical.product left right :: insertProducts (right :: rest)
      else left :: insertProducts (right :: rest)

end Formula
