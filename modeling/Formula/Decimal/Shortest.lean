import Formula.Decimal.Basic

namespace Formula

open Float.Model

/-! The shortest decimal that reads back as a given binary number.

A number `significand * 2 ^ exponent` of a format owns the interval of reals that round to it. The
search goes over the grids `10 ^ k` from coarse to fine and stops at the first one with a point in
that interval; only the two grid points beside the number need a look.
-/

/-- A positive number and the interval of reals that round to it, as fractions over one
denominator. The ends belong to the interval if the significand is even. -/
structure RoundingInterval where
  lower : Nat
  value : Nat
  upper : Nat
  denominator : Nat
  closed : Bool

namespace RoundingInterval

/-- The interval of `significand * 2 ^ exponent`. Its lower half is only half as wide where the
significand is the least normal one, because the numbers below it lie twice as close. -/
def ofBinary (format : Format) (significand : Nat) (exponent : Int) : RoundingInterval :=
  let narrow := significand = Nat.pow 2 (format.mantissaBits - 1) ∧ format.minExponent < exponent
  let scale := Nat.pow 2 (exponent - 2).toNat
  { lower := (4 * significand - if narrow then 1 else 2) * scale
    value := 4 * significand * scale
    upper := (4 * significand + 2) * scale
    denominator := Nat.pow 2 (2 - exponent).toNat
    closed := significand % 2 == 0 }

/-- Whether `coefficient * 10 ^ grid` rounds to the number. -/
def contains (interval : RoundingInterval) (grid : Int) (coefficient : Nat) : Bool :=
  let point := coefficient * Nat.pow 10 grid.toNat * interval.denominator
  let unit := Nat.pow 10 (-grid).toNat
  if interval.closed then
    decide (interval.lower * unit ≤ point) && decide (point ≤ interval.upper * unit)
  else
    decide (interval.lower * unit < point) && decide (point < interval.upper * unit)

/-- The number measured in units of `10 ^ grid`: the whole part, the remainder and the divisor. -/
def measure (interval : RoundingInterval) (grid : Int) : Nat × Nat × Nat :=
  let top := interval.value * Nat.pow 10 (-grid).toNat
  let bottom := interval.denominator * Nat.pow 10 grid.toNat
  (top / bottom, top % bottom, bottom)

/-- The point of the grid nearest to the number among those that round to it; halfway between two
of them, the upper one. -/
def nearestOnGrid? (interval : RoundingInterval) (grid : Int) : Option Nat :=
  let (below, remainder, unit) := interval.measure grid
  match interval.contains grid below, interval.contains grid (below + 1) with
  | true, true => some (if 2 * remainder < unit then below else below + 1)
  | true, false => some below
  | false, true => some (below + 1)
  | false, false => none

/-- The first grid from `grid` down that has a point in the interval, among `count` grids. -/
def search (interval : RoundingInterval) : Nat → Int → Decimal
  | 0, grid => ⟨(interval.measure grid).1, grid⟩
  | count + 1, grid =>
      match interval.nearestOnGrid? grid with
      | some coefficient => ⟨coefficient, grid⟩
      | none => interval.search count (grid - 1)

end RoundingInterval

namespace Decimal

/-- A power of ten above `2 ^ bits`, and by at most one place too high. -/
def gridAbove (bits : Int) : Int := bits * 30103 / 100000 + 1

/-- Grids to search: enough for the digits that a significand of so many bits can need, and for
the places by which the first grid is too coarse. -/
def gridCount (significandBits : Nat) : Nat := significandBits * 30103 / 100000 + 5

/-- The shortest decimal that rounds to `significand * 2 ^ exponent`; of several, the nearest. -/
def shortest (format : Format) (significand : Nat) (exponent : Int) : Decimal :=
  let interval := RoundingInterval.ofBinary format significand exponent
  interval.search (gridCount format.mantissaBits) (gridAbove (significand.log2 + 1 + exponent))

end Decimal

end Formula
