import MemoryBudget.Numeric.Multiplier
import MemoryBudget.Numeric.Shortest

/-!
# Budgets

What a store may use, what it uses, and the base size that multipliers apply to. Sizes are sixty-four-bit
words; taking and giving back is checked, so a size that would leave the word is a fault and never wraps.
-/

set_option autoImplicit false

namespace MemoryBudget

/-- A broken promise inside a store. No store that was built by the operations of this library meets one. -/
inductive Fault where
  | slotMissing (slot : Nat)
  /-- An entry was expected in the slot. -/
  | slotVacant (slot : Nat)
  /-- A vacancy was expected in the slot. -/
  | slotOccupied (slot : Nat)
  /-- The slot is not the freshest, and yet nothing is fresher. -/
  | nothingFresher (slot : Nat)
  /-- More is in use than the target, and no entry is left that uses it. -/
  | unexplainedUse (used target : UInt64)
  | useUnderflow (used cost : UInt64)
  | useOverflow (used cost : UInt64)
  deriving DecidableEq

structure InvalidMultiplier where
  multiplier : Multiplier
  deriving DecidableEq

def InvalidMultiplier.message (invalid : InvalidMultiplier) : String :=
  "size multiplier must be >= 0, got " ++ invalid.multiplier.text

def Multiplier.validate (multiplier : Multiplier) : Except InvalidMultiplier Unit :=
  if multiplier.accepted then .ok () else .error ⟨multiplier⟩

structure Budget where
  /-- The size that multipliers apply to; it never changes. -/
  base : UInt64
  limit : UInt64
  used : UInt64
  deriving DecidableEq

namespace Budget

def ofLimit (limit : UInt64) : Budget :=
  { base := limit, limit := limit, used := 0 }

def take? (budget : Budget) (cost : UInt64) : Except Fault Budget :=
  if budget.used.toNat + cost.toNat < UInt64.size then
    .ok { budget with used := budget.used + cost }
  else
    .error (.useOverflow budget.used cost)

def giveBack? (budget : Budget) (cost : UInt64) : Except Fault Budget :=
  if cost ≤ budget.used then
    .ok { budget with used := budget.used - cost }
  else
    .error (.useUnderflow budget.used cost)

/-- Sets the limit from the base, so that factors never compound. What is in use may then exceed it. -/
def rescale (budget : Budget) (multiplier : Multiplier) : Except InvalidMultiplier Budget := do
  multiplier.validate
  return { budget with limit := scaleSize budget.base multiplier }

def roomy (budget : Budget) : Bool :=
  budget.used = 0 ∨ 2 ≤ budget.limit / budget.used

end Budget

end MemoryBudget
