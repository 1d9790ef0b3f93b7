namespace Formula

/-! Decimal numbers, their value in double precision, and the two ways of writing them. -/

/-- The number `coefficient * 10 ^ exponent`. -/
structure Decimal where
  coefficient : Nat
  exponent : Int
deriving Repr, DecidableEq

namespace Decimal

def digits (decimal : Decimal) : List Char := Nat.toDigits 10 decimal.coefficient

/-- The power of ten that the first digit of the coefficient counts. -/
def leadingExponent (decimal : Decimal) : Int :=
  decimal.digits.length - 1 + decimal.exponent

/-- A decimal above this power of ten is above every double-precision number. -/
def overflowExponent : Int := 310

/-- A decimal below this power of ten rounds to zero in double precision. -/
def underflowExponent : Int := -330

/-- The double-precision number nearest to the decimal; infinity beyond the largest one. Decimals
far outside the range are settled without raising ten to their exponents. -/
def toFloat (decimal : Decimal) : Float :=
  if decimal.coefficient = 0 then 0
  else if overflowExponent < decimal.leadingExponent then 1 / 0
  else if decimal.leadingExponent < underflowExponent then 0
  else
    Float.ofScientific decimal.coefficient (decide (decimal.exponent < 0)) decimal.exponent.natAbs

/-- Digits and a decimal point, never an exponent. -/
def positional (decimal : Decimal) : List Char :=
  match decimal.exponent with
  | .ofNat zeros => decimal.digits ++ List.replicate zeros '0'
  | .negSucc below =>
      let places := below + 1
      let padded := List.replicate (places + 1 - decimal.digits.length) '0' ++ decimal.digits
      padded.take (padded.length - places) ++ '.' :: padded.drop (padded.length - places)

/-- One digit, the others after a point if there are any, and the power of ten. -/
def scientific (decimal : Decimal) : List Char :=
  let fraction := decimal.digits.drop 1
  decimal.digits.take 1 ++ (if fraction.isEmpty then [] else '.' :: fraction) ++
    'e' :: (toString decimal.leadingExponent).toList

end Decimal

end Formula
