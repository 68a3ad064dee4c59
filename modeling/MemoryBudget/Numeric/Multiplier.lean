import MemoryBudget.Numeric.Significant

/-!
# Size multipliers

A budget is scaled by a single-precision number, held as its bit pattern. Every finite pattern is a whole
number of units of `2 ^ -149`, so scaling is exact arithmetic on natural numbers with three roundings: the
budget to fifty-three bits, the product to fifty-three bits, and the result to the nearest whole number.
-/

set_option autoImplicit false

namespace MemoryBudget

/-- A single-precision number, given by its bits: sign, eight bits of exponent, twenty-three of fraction. -/
structure Multiplier where
  bits : UInt32
  deriving DecidableEq

/-- What a bit pattern stands for once its sign is set aside. -/
inductive Magnitude where
  /-- So many units of `2 ^ -149`. -/
  | finite (units : Nat)
  | infinite
  | undefined
  deriving DecidableEq

namespace Multiplier

def negative (multiplier : Multiplier) : Bool :=
  Nat.pow 2 31 ≤ multiplier.bits.toNat

def exponentField (multiplier : Multiplier) : Nat :=
  multiplier.bits.toNat / Nat.pow 2 23 % 256

def fractionField (multiplier : Multiplier) : Nat :=
  multiplier.bits.toNat % Nat.pow 2 23

/-- The leading digits of a finite pattern; below the normal range there is no hidden bit. -/
def significand (multiplier : Multiplier) : Nat :=
  if multiplier.exponentField = 0 then multiplier.fractionField else Nat.pow 2 23 + multiplier.fractionField

/-- The distance to the next larger finite pattern, in units of `2 ^ -149`. -/
def spacing (multiplier : Multiplier) : Nat :=
  Nat.pow 2 (multiplier.exponentField - 1)

def magnitude (multiplier : Multiplier) : Magnitude :=
  if multiplier.exponentField = 255 then
    if multiplier.fractionField = 0 then .infinite else .undefined
  else
    .finite (multiplier.significand * multiplier.spacing)

/-- A budget may be scaled by anything that is at least zero; both zeros are. -/
def accepted (multiplier : Multiplier) : Bool :=
  match multiplier.magnitude with
  | .undefined => false
  | .infinite => !multiplier.negative
  | .finite units => units == 0 || !multiplier.negative

def half : Multiplier := ⟨0x3f000000⟩

def one : Multiplier := ⟨0x3f800000⟩

def oneAndHalf : Multiplier := ⟨0x3fc00000⟩

end Multiplier

def largestSize : Nat := Nat.pow 2 64 - 1

/-- `size` times an accepted multiplier: rounded to the nearest whole number, a half going up, and no larger
than the largest size. Nothing times infinity is nothing. -/
def scaleSize (size : UInt64) (multiplier : Multiplier) : UInt64 :=
  match multiplier.magnitude with
  | .finite units =>
      let product := roundSignificant (roundSignificant size.toNat * units)
      UInt64.ofNat (min ((product + Nat.pow 2 148) / Nat.pow 2 149) largestSize)
  | .infinite => if size = 0 then 0 else UInt64.ofNat largestSize
  | .undefined => 0

/-- Half of a size, as trimming takes it: rounded to fifty-three bits first and cut to a whole number last. -/
def halfSize (size : UInt64) : UInt64 :=
  UInt64.ofNat (min (roundSignificant size.toNat / 2) largestSize)

end MemoryBudget
