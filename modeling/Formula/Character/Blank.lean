import Formula.Character.Ranges

namespace Formula.Character

/-! Blanks, by the Unicode property White_Space. -/

/-- Code points with the property White_Space, in increasing order. -/
def blankRanges : List (Nat × Nat) :=
  [(0x9, 0xD), (0x20, 0x20), (0x85, 0x85), (0xA0, 0xA0), (0x1680, 0x1680), (0x2000, 0x200A),
   (0x2028, 0x2029), (0x202F, 0x202F), (0x205F, 0x205F), (0x3000, 0x3000)]

/-- A blank separates tokens and has no other meaning. -/
def isBlank (character : Char) : Bool :=
  memberOfRanges blankRanges character.toNat

end Formula.Character
