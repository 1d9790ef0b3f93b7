import Formula.Token.Juxtaposition
import Formula.Token.Lexeme
import Formula.Rpn.Ordering
import Formula.Rpn.Balance

namespace Formula

/-! Formulas in RPN: read, with products inserted if neighbours multiply, ordered and balanced. -/

namespace Rpn

/-- The RPN of tokens in the order of writing. -/
def ofTokens {τ : Type} [Lexical τ] (juxtaposition : Bool) (tokens : List τ) :
    Except SyntaxError (List τ) := do
  let ordered ← order [] (if juxtaposition then insertProducts tokens else tokens)
  balance (ordered.map Lexical.token)
  return ordered

/-- The RPN of a formula, each token with the characters that wrote it. -/
def located (lexicon : Lexicon) (juxtaposition : Bool) (text : String) :
    Except SyntaxError (List Located) := do
  ofTokens juxtaposition (← lexicon.tokens text)

/-- The RPN of a formula. -/
def ofText (lexicon : Lexicon) (juxtaposition : Bool) (text : String) :
    Except SyntaxError (List Token) :=
  (located lexicon juxtaposition text).map (·.map Located.token)

end Rpn

end Formula
