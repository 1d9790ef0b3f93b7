import Formula.Scalar.Numeral
import Formula.Decimal.Shortest

namespace Formula

open Float.Model

/-! Texts of machine numbers. All of them take the fewest digits that read back in the number's own
format; they differ in the words for special numbers and in when they use an exponent.
-/

namespace Numeral

def signed (sign : UnpackedFloat.Sign) (text : String) : String :=
  match sign with
  | .negative => "-" ++ text
  | .positive => text

variable {α : Type} [Numeral α]

/-- The shortest decimal of a positive number of the format. -/
def shortestDecimal (α : Type) [Numeral α] (significand : Nat) (exponent : Int) : Decimal :=
  Decimal.shortest (format α) significand exponent

/-- The plain text of a number: never an exponent, no point after a whole number, and the sign of
zero is kept. -/
def plainText (number : α) : String :=
  match unpacked number with
  | .notANumber => "NaN"
  | .infinity sign => signed sign "inf"
  | .zero sign => signed sign "0"
  | .finite sign significand exponent _ =>
      signed sign (String.ofList (shortestDecimal α significand exponent).positional)

/-- Leading exponents of ten for which the detailed text stays without an exponent. -/
def isPositionalExponent (leading : Int) : Bool := decide (-4 ≤ leading) && decide (leading < 16)

/-- The text of a number that shows it is not an integer: a whole number ends in `.0`, and numbers
far from one have an exponent. -/
def detailedText (number : α) : String :=
  match unpacked number with
  | .notANumber => "NaN"
  | .infinity sign => signed sign "inf"
  | .zero sign => signed sign "0.0"
  | .finite sign significand exponent _ =>
      let decimal := shortestDecimal α significand exponent
      signed sign <| String.ofList <|
        if isPositionalExponent decimal.leadingExponent then
          decimal.positional ++ if decimal.exponent < 0 then [] else ['.', '0']
        else decimal.scientific

/-- The whole number `significand * 2 ^ exponent`, if it is one. -/
def whole? (significand : Nat) : Int → Option Nat
  | .ofNat exponent => some (significand * Nat.pow 2 exponent)
  | .negSucc below =>
      let divisor := Nat.pow 2 (below + 1)
      if significand % divisor = 0 then some (significand / divisor) else none

/-- Whole numbers below this one are written as integers in an expression. -/
def integerTextBound : Nat := 10000000000

/-- The text of a constant in an expression: small whole numbers as integers, zero without a sign,
all others as in the plain text. -/
def constantText (number : α) : String :=
  match unpacked number with
  | .notANumber => "NaN"
  | .infinity sign => signed sign "Infinity"
  | .zero _ => "0"
  | .finite sign significand exponent _ =>
      match (whole? significand exponent).filter (· < integerTextBound) with
      | some integer => signed sign (String.ofList (Nat.toDigits 10 integer))
      | none => plainText number

/-- Whether a number lies below zero; neither zero nor not-a-number does. -/
def isBelowZero (number : α) : Bool :=
  match unpacked number with
  | .infinity .negative => true
  | .finite .negative _ _ _ => true
  | _ => false

end Numeral

end Formula
