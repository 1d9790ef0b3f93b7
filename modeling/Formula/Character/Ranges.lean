namespace Formula.Character

/-! Sets of characters, given as closed ranges of code points.

A table lists its ranges in increasing order, so a lookup stops at the first range that begins
above the code point; for letters and digits of ASCII that is after a few steps.
-/

/-- Whether a code point lies in one of the ranges of an increasing table. -/
def memberOfRanges : List (Nat × Nat) → Nat → Bool
  | [], _ => false
  | (first, last) :: later, point =>
      if point < first then false
      else if point ≤ last then true
      else memberOfRanges later point

end Formula.Character
