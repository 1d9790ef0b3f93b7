import Formula.Decimal.Basic

namespace Formula

/-! Number literals: digits with at most one point, and an optional exponent. -/

namespace Decimal

def isLiteralBody (character : Char) : Bool := character.isDigit || character == '.'

def readDigits (digits : List Char) : Nat :=
  digits.foldl (fun value digit => 10 * value + (digit.toNat - '0'.toNat)) 0

def splitSign : List Char → List Char × List Char
  | '+' :: rest => (['+'], rest)
  | '-' :: rest => (['-'], rest)
  | text => ([], text)

/-- The exponent at the start of a text: a mark, an optional sign and digits. Without digits there
is none, so that the mark can be a name. -/
def exponentPart (text : List Char) : List Char :=
  match text with
  | [] => []
  | mark :: rest =>
      let (sign, digits) := splitSign rest
      let run := digits.takeWhile Char.isDigit
      if (mark == 'e' || mark == 'E') && !run.isEmpty then mark :: sign ++ run else []

/-- The longest literal at the start of a text, well formed or not. -/
def literalPart (text : List Char) : List Char :=
  text.takeWhile isLiteralBody ++ exponentPart (text.dropWhile isLiteralBody)

theorem splitSign_append (text : List Char) : (splitSign text).1 ++ (splitSign text).2 = text := by
  unfold splitSign
  split <;> rfl

theorem exponentPart_isPrefix (text : List Char) : exponentPart text <+: text := by
  cases text with
  | nil => exact List.prefix_refl []
  | cons mark rest =>
      have whole := splitSign_append rest
      simp only [exponentPart]
      split
      · refine List.cons_prefix_cons.mpr ⟨rfl, ?_⟩
        conv => rhs; rw [← whole]
        exact (List.prefix_append_right_inj _).mpr (List.takeWhile_prefix _)
      · exact List.nil_prefix

/-- The literal at the start of a text is a beginning of it. -/
theorem literalPart_isPrefix (text : List Char) : literalPart text <+: text := by
  have whole := List.takeWhile_append_dropWhile (p := isLiteralBody) (l := text)
  conv => rhs; rw [← whole]
  exact (List.prefix_append_right_inj _).mpr (exponentPart_isPrefix _)

/-- The value of a whole exponent; of no text, zero. -/
def readExponent? : List Char → Option Int
  | [] => some 0
  | mark :: rest =>
      let (sign, digits) := splitSign rest
      if (mark == 'e' || mark == 'E') && !digits.isEmpty && digits.all Char.isDigit then
        some (if sign = ['-'] then -(readDigits digits : Int) else readDigits digits)
      else none

def splitFraction : List Char → List Char × List Char
  | '.' :: rest => (rest.takeWhile Char.isDigit, rest.dropWhile Char.isDigit)
  | text => ([], text)

/-- The decimal that a whole text writes: at least one digit, before or after the point. -/
def ofText? (text : List Char) : Option Decimal :=
  let whole := text.takeWhile Char.isDigit
  let (fraction, rest) := splitFraction (text.dropWhile Char.isDigit)
  if whole.isEmpty && fraction.isEmpty then none
  else (readExponent? rest).map fun exponent =>
    ⟨readDigits (whole ++ fraction), exponent - fraction.length⟩

end Decimal

end Formula
