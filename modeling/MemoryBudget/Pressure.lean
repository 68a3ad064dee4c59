import MemoryBudget.Budget

/-!
# Memory pressure

How much a store keeps when the host wants memory back, and how much memory it may use in the first place.
-/

set_option autoImplicit false

namespace MemoryBudget

/-- How badly memory is wanted back. A higher level is more severe. -/
structure Pressure where
  level : Int
  deriving DecidableEq

namespace Pressure

/-! ## Levels of an application in the foreground -/

def runningModerate : Pressure := ⟨5⟩

def runningLow : Pressure := ⟨10⟩

def runningCritical : Pressure := ⟨15⟩

/-! ## Levels of an application that cannot be seen -/

def hidden : Pressure := ⟨20⟩

def background : Pressure := ⟨40⟩

def moderate : Pressure := ⟨60⟩

def complete : Pressure := ⟨80⟩

def named : List Pressure :=
  [runningModerate, runningLow, runningCritical, hidden, background, moderate, complete]

instance : Ord Pressure := ⟨fun a b => compare a.level b.level⟩

end Pressure

inductive Retention where
  | everything
  | half
  | nothing
  deriving DecidableEq

namespace Retention

def fraction? : Retention → Option String
  | .everything => none
  | .half => some "0.5"
  | .nothing => some "0"

end Retention

/-- In the background everything goes. Once hidden, or critically short in the foreground, the colder half goes. -/
def Pressure.retention (pressure : Pressure) : Retention :=
  if Pressure.background.level ≤ pressure.level then .nothing
  else if Pressure.hidden.level ≤ pressure.level ∨ pressure = Pressure.runningCritical then .half
  else .everything

inductive Allowance where
  | low
  | normal
  | high
  deriving DecidableEq

namespace Allowance

def multiplier : Allowance → Multiplier
  | .low => Multiplier.half
  | .normal => Multiplier.one
  | .high => Multiplier.oneAndHalf

instance : Inhabited Allowance := ⟨.normal⟩

end Allowance

end MemoryBudget
