namespace Formula

/-! Places in the source of a formula, and how a message points at them. -/

/-- A stretch of the source, in characters counted from zero; `stop` is the first character after
it. -/
structure Span where
  start : Nat
  stop : Nat
deriving Repr, DecidableEq

namespace Span

def ofPosition (position : Nat) : Span := ⟨position, position + 1⟩

/-- Whether the span covers at least one character. -/
def covers (span : Span) : Bool := decide (span.start < span.stop)

/-- The ending of a message that points at the span, counted from one; an empty span adds
nothing. -/
def phrase (span : Span) : String :=
  if !span.covers then ""
  else if span.stop - span.start = 1 then " at position " ++ toString (span.start + 1)
  else " at positions " ++ toString (span.start + 1) ++ "-" ++ toString span.stop

end Span

end Formula
