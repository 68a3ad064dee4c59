import MemoryBudget.Budget

/-!
# Slot arenas

Entries live in the slots of one growing vector. The occupied slots form a list, linked both ways from the
freshest entry to the coldest; the vacant ones form a chain from which new entries are served first. Every
step of a relinking is checked, and a link that leads to no entry is a `Fault`.
-/

set_option autoImplicit false

namespace MemoryBudget

/-- A value under its key, with the cost that was recorded when it was admitted. -/
structure Entry (κ α : Type) where
  key : κ
  value : α
  cost : UInt64
  deriving DecidableEq

structure Node (κ α : Type) where
  entry : Entry κ α
  fresher : Option Nat
  colder : Option Nat

inductive Slot (κ α : Type) where
  | vacant (next : Option Nat)
  | occupied (node : Node κ α)

structure Arena (κ α : Type) where
  slots : Array (Slot κ α)
  freshest : Option Nat
  coldest : Option Nat
  /-- The vacant slot that is filled next. -/
  vacancy : Option Nat

namespace Arena

variable {κ α : Type}

def empty : Arena κ α :=
  { slots := #[], freshest := none, coldest := none, vacancy := none }

def node? (arena : Arena κ α) (slot : Nat) : Except Fault (Node κ α) :=
  match arena.slots[slot]? with
  | some (.occupied node) => .ok node
  | some (.vacant _) => .error (.slotVacant slot)
  | none => .error (.slotMissing slot)

def fill (arena : Arena κ α) (slot : Nat) (content : Slot κ α) : Arena κ α :=
  { arena with slots := arena.slots.setIfInBounds slot content }

def setFresher? (arena : Arena κ α) (slot fresher : Option Nat) : Except Fault (Arena κ α) :=
  match slot with
  | none => .ok arena
  | some slot => do
      let node ← arena.node? slot
      return arena.fill slot (.occupied { node with fresher := fresher })

def setColder? (arena : Arena κ α) (slot : Nat) (colder : Option Nat) : Except Fault (Arena κ α) := do
  let node ← arena.node? slot
  return arena.fill slot (.occupied { node with colder := colder })

/-- Takes an occupied slot out of the list. Its own links are left as they were. -/
def unlink? (arena : Arena κ α) (slot : Nat) : Except Fault (Arena κ α) := do
  let node ← arena.node? slot
  let coldest := if arena.coldest = some slot then node.fresher else arena.coldest
  if arena.freshest = some slot then
    let arena := { arena with freshest := node.colder, coldest := coldest }
    arena.setFresher? node.colder none
  else
    match node.fresher with
    | none => throw (.nothingFresher slot)
    | some neighbour =>
        let arena ← { arena with coldest := coldest }.setColder? neighbour node.colder
        arena.setFresher? node.colder (some neighbour)

/-- Puts an occupied slot that is in no list at the fresh end. -/
def linkFreshest? (arena : Arena κ α) (slot : Nat) : Except Fault (Arena κ α) := do
  let node ← arena.node? slot
  let arena' := arena.fill slot (.occupied { node with fresher := none, colder := arena.freshest })
  let arena' ← arena'.setFresher? arena.freshest (some slot)
  return { arena' with freshest := some slot, coldest := arena'.coldest.or (some slot) }

def promote? (arena : Arena κ α) (slot : Nat) : Except Fault (Arena κ α) := do
  if arena.freshest = some slot then
    return arena
  else
    let arena ← arena.unlink? slot
    arena.linkFreshest? slot

/-- Takes the entry out of a slot, which is then the first one to be filled again. -/
def vacate? (arena : Arena κ α) (slot : Nat) : Except Fault (Entry κ α × Arena κ α) := do
  let node ← arena.node? slot
  let arena ← arena.unlink? slot
  return (node.entry, { arena.fill slot (.vacant arena.vacancy) with vacancy := some slot })

def claim? (arena : Arena κ α) : Except Fault (Nat × Arena κ α) :=
  match arena.vacancy with
  | none => .ok (arena.slots.size, { arena with slots := arena.slots.push (.vacant none) })
  | some slot =>
      match arena.slots[slot]? with
      | some (.vacant next) => .ok (slot, { arena with vacancy := next })
      | some (.occupied _) => .error (.slotOccupied slot)
      | none => .error (.slotMissing slot)

def occupy? (arena : Arena κ α) (entry : Entry κ α) : Except Fault (Nat × Arena κ α) := do
  let (slot, arena) ← arena.claim?
  let arena ← (arena.fill slot (.occupied ⟨entry, none, none⟩)).linkFreshest? slot
  return (slot, arena)

def walk (arena : Arena κ α) : Nat → Option Nat → List (Entry κ α)
  | 0, _ => []
  | _ + 1, none => []
  | steps + 1, some slot =>
      match arena.node? slot with
      | .ok node => node.entry :: arena.walk steps node.colder
      | .error _ => []

def entries (arena : Arena κ α) : List (Entry κ α) :=
  arena.walk arena.slots.size arena.freshest

end Arena

end MemoryBudget
