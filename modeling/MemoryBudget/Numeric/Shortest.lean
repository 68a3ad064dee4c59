import MemoryBudget.Numeric.Multiplier

/-!
# Shortest decimal text

A multiplier is written with the fewest decimal digits that read back as the same bit pattern, always
positionally: no exponent, and no point unless there is a fraction. Among the shortest candidates the nearest
one is written; the upper of two equally near ones.
-/

set_option autoImplicit false

namespace MemoryBudget

structure Decimal where
  digits : Nat
  exponent : Int
  deriving DecidableEq

namespace Decimal

def positional (decimal : Decimal) : String :=
  let digits := (toString decimal.digits).toList
  if 0 ≤ decimal.exponent then
    String.ofList (digits ++ List.replicate decimal.exponent.toNat '0')
  else
    let places := (-decimal.exponent).toNat
    let padded := List.replicate (places + 1 - digits.length) '0' ++ digits
    let whole := padded.length - places
    String.ofList (padded.take whole ++ '.' :: padded.drop whole)

end Decimal

/-- The numbers that read back as one bit pattern: everything between two ends, which belong to it or not. -/
structure ReadingInterval where
  low : Nat
  high : Nat
  closed : Bool

def ReadingInterval.contains (interval : ReadingInterval) (number : Nat) : Bool :=
  if interval.closed then interval.low ≤ number ∧ number ≤ interval.high
  else interval.low < number ∧ number < interval.high

def nearestMultiple? (interval : ReadingInterval) (number step : Nat) : Option Nat :=
  let quotient := number / step
  let below := quotient * step
  let above := below + step
  match interval.contains below, interval.contains above with
  | true, true => some (if number - below < above - number then quotient else quotient + 1)
  | true, false => some quotient
  | false, true => some (quotient + 1)
  | false, false => none

/-- Fifty-four places are enough for nine digits of the smallest positive multiplier. -/
def decimalPlaces : Nat := 54

/-- Tries the grids of spacing `10 ^ (grid - 1)`, `10 ^ (grid - 2)`, … down to `1`, in units of
`10 ^ -decimalPlaces`, and stops at the first with a point in the interval. -/
def coarsestDecimal? (interval : ReadingInterval) (number oneUnit : Nat) : Nat → Option Decimal
  | 0 => none
  | grid + 1 =>
      match nearestMultiple? interval number (oneUnit * Nat.pow 10 grid) with
      | some digits => some ⟨digits, (grid : Int) - decimalPlaces⟩
      | none => coarsestDecimal? interval number oneUnit grid

namespace Multiplier

/-- The interval that reads back as this pattern, in quarters of `2 ^ -149 * 10 ^ -decimalPlaces`. Below a power of
two the next pattern is only half as far away. The ends belong to the pattern with the even significand. -/
def readingInterval (multiplier : Multiplier) : ReadingInterval :=
  let scaled := Nat.pow 10 decimalPlaces
  let center := 4 * (multiplier.significand * multiplier.spacing)
  let below :=
    if multiplier.fractionField = 0 ∧ 1 < multiplier.exponentField then multiplier.spacing
    else 2 * multiplier.spacing
  { low := (center - below) * scaled
    high := (center + 2 * multiplier.spacing) * scaled
    closed := multiplier.significand % 2 = 0 }

def shortestDecimal (multiplier : Multiplier) : Decimal :=
  let center := 4 * (multiplier.significand * multiplier.spacing) * Nat.pow 10 decimalPlaces
  let found := coarsestDecimal? multiplier.readingInterval center (4 * Nat.pow 2 149) (decimalPlaces + 40)
  found.getD ⟨0, 0⟩

def text (multiplier : Multiplier) : String :=
  let sign := if multiplier.negative then "-" else ""
  match multiplier.magnitude with
  | .undefined => "NaN"
  | .infinite => sign ++ "inf"
  | .finite 0 => sign ++ "0"
  | .finite _ => sign ++ multiplier.shortestDecimal.positional

end Multiplier

end MemoryBudget
