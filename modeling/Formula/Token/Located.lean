import Formula.Token.Builtin

namespace Formula

/-! Tokens with their place in the source.

What follows reading only looks at tokens, so it is stated for whatever carries one: bare tokens,
and tokens with the characters that wrote them.
-/

/-- Items that carry a token. `product` is the multiplication that stands between two neighbours
without being written. -/
class Lexical (τ : Type) where
  token : τ → Token
  product : τ → τ → τ

instance : Lexical Token where
  token := id
  product _ _ := .operator .times

structure Located where
  token : Token
  span : Span
deriving DecidableEq

/-- A product that no character writes stands where the second neighbour begins. -/
instance : Lexical Located where
  token := Located.token
  product _ next := ⟨.operator .times, ⟨next.span.start, next.span.start⟩⟩

end Formula
