/-!
# Fifty-three significant bits

Budgets are scaled and halved in double precision. Here a natural number is rounded to the nearest one with
at most fifty-three significant bits, a tie going to the even last bit. No magnitude that a budget can reach
leaves the normal range of that format, so this rounding is all of it. Powers are written with `Nat.pow`, which
means the same wherever it is read.
-/

set_option autoImplicit false

namespace MemoryBudget

/-- `number / 2 ^ shift`, rounded to the nearest quotient; a half goes to the even one. -/
def nearestQuotient (number shift : Nat) : Nat :=
  let divisor := Nat.pow 2 shift
  let quotient := number / divisor
  let doubledRest := 2 * (number % divisor)
  if divisor < doubledRest ∨ (doubledRest = divisor ∧ quotient % 2 = 1) then
    quotient + 1
  else
    quotient

/-- Keeps the fifty-three leading bits. A number below `2 ^ 53` has no more than that and is unchanged. -/
def roundSignificant (number : Nat) : Nat :=
  let shift := number.log2 - 52
  nearestQuotient number shift * Nat.pow 2 shift

end MemoryBudget
