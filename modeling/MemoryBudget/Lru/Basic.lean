import MemoryBudget.Lru.Arena
import MemoryBudget.Pressure
import Std.Data.HashMap

/-!
# Stores with a budget and an order of recency

An `Lru` holds values under keys, each at a cost recorded when it was admitted. When the budget is short the
coldest entries leave, and the caller receives them; the store itself calls nobody. An operation whose name
ends in a question mark says which `Fault` stopped it; the one without leaves the store as it was in that
case, which no store built from `Lru.ofLimit` can reach.
-/

set_option autoImplicit false

namespace MemoryBudget

structure Lru (κ α : Type) [BEq κ] [Hashable κ] where
  arena : Arena κ α
  /-- The slot of each resident key. -/
  index : Std.HashMap κ Nat
  budget : Budget

structure Usage where
  limit : UInt64
  used : UInt64
  count : Nat
  deriving DecidableEq

inductive Placement (κ α : Type) where
  /-- It costs at least the whole limit. What was under its key stays there. -/
  | refused (entry : Entry κ α)
  /-- It is now the freshest entry. `previous` was under its key; `evicted` made room, coldest first. -/
  | admitted (previous : Option (Entry κ α)) (evicted : List (Entry κ α))

namespace Lru

variable {κ α : Type} [BEq κ] [Hashable κ]

def ofLimit (limit : UInt64) : Lru κ α :=
  { arena := Arena.empty, index := ∅, budget := Budget.ofLimit limit }

def limit (store : Lru κ α) : UInt64 := store.budget.limit

def used (store : Lru κ α) : UInt64 := store.budget.used

def count (store : Lru κ α) : Nat := store.index.size

def isEmpty (store : Lru κ α) : Bool := store.index.isEmpty

def usage (store : Lru κ α) : Usage :=
  { limit := store.limit, used := store.used, count := store.count }

def entries (store : Lru κ α) : List (Entry κ α) := store.arena.entries

def contains (store : Lru κ α) (key : κ) : Bool := store.index.contains key

/-! ## Checked operations -/

def lookup? (store : Lru κ α) (key : κ) : Except Fault (Option (Entry κ α)) :=
  match store.index[key]? with
  | none => .ok none
  | some slot => do
      let node ← store.arena.node? slot
      return some node.entry

def touch? (store : Lru κ α) (key : κ) : Except Fault (Option (Entry κ α) × Lru κ α) :=
  match store.index[key]? with
  | none => .ok (none, store)
  | some slot => do
      let arena ← store.arena.promote? slot
      let node ← arena.node? slot
      return (some node.entry, { store with arena := arena })

def evictSlot? (store : Lru κ α) (slot : Nat) : Except Fault (Entry κ α × Lru κ α) := do
  let (entry, arena) ← store.arena.vacate? slot
  let budget ← store.budget.giveBack? entry.cost
  return (entry, { arena := arena, index := store.index.erase entry.key, budget := budget })

def remove? (store : Lru κ α) (key : κ) : Except Fault (Option (Entry κ α) × Lru κ α) :=
  match store.index[key]? with
  | none => .ok (none, store)
  | some slot => do
      let (entry, store) ← store.evictSlot? slot
      return (some entry, store)

/-- Evicts the coldest entry until at most `target` is in use; `steps` bounds how often. -/
def shed? (target : UInt64) : Nat → Lru κ α → Except Fault (List (Entry κ α) × Lru κ α)
  | steps, store =>
      if store.budget.used ≤ target then
        .ok ([], store)
      else
        match steps, store.arena.coldest with
        | steps + 1, some slot => do
            let (entry, store) ← store.evictSlot? slot
            let (evicted, store) ← shed? target steps store
            return (entry :: evicted, store)
        | _, _ => .error (.unexplainedUse store.budget.used target)

/-- No entry needs a second eviction, so the slots bound the steps. -/
def trimTo? (store : Lru κ α) (target : UInt64) : Except Fault (List (Entry κ α) × Lru κ α) :=
  store.shed? target store.arena.slots.size

def drain? : Nat → Lru κ α → Except Fault (List (Entry κ α) × Lru κ α)
  | 0, store => .ok ([], store)
  | steps + 1, store =>
      match store.arena.coldest with
      | none => .ok ([], store)
      | some slot => do
          let (entry, store) ← store.evictSlot? slot
          let (evicted, store) ← drain? steps store
          return (entry :: evicted, store)

/-- Evicts every entry, also those that cost nothing. -/
def clear? (store : Lru κ α) : Except Fault (List (Entry κ α) × Lru κ α) :=
  store.drain? store.arena.slots.size

/-- Room is made before the cost is taken, so that no more than the limit is ever in use. -/
def insert? (store : Lru κ α) (entry : Entry κ α) : Except Fault (Placement κ α × Lru κ α) :=
  if store.budget.limit ≤ entry.cost then
    .ok (.refused entry, store)
  else do
    let (previous, store) ← store.remove? entry.key
    let (evicted, store) ← store.trimTo? (store.budget.limit - entry.cost)
    let (slot, arena) ← store.arena.occupy? entry
    let budget ← store.budget.take? entry.cost
    return (.admitted previous evicted,
      { arena := arena, index := store.index.insert entry.key slot, budget := budget })

/-! ## Operations -/

def peek? (store : Lru κ α) (key : κ) : Option α :=
  match store.lookup? key with
  | .ok found => found.map (·.value)
  | .error _ => none

def get (store : Lru κ α) (key : κ) : Option α × Lru κ α :=
  match store.touch? key with
  | .ok (found, store) => (found.map (·.value), store)
  | .error _ => (none, store)

def remove (store : Lru κ α) (key : κ) : Option (Entry κ α) × Lru κ α :=
  match store.remove? key with
  | .ok outcome => outcome
  | .error _ => (none, store)

def trimTo (store : Lru κ α) (target : UInt64) : List (Entry κ α) × Lru κ α :=
  match store.trimTo? target with
  | .ok outcome => outcome
  | .error _ => ([], store)

def clear (store : Lru κ α) : List (Entry κ α) × Lru κ α :=
  match store.clear? with
  | .ok outcome => outcome
  | .error _ => ([], store)

def insert (store : Lru κ α) (entry : Entry κ α) : Placement κ α × Lru κ α :=
  match store.insert? entry with
  | .ok outcome => outcome
  | .error _ => (.refused entry, store)

def rescale (store : Lru κ α) (multiplier : Multiplier) :
    Except InvalidMultiplier (List (Entry κ α) × Lru κ α) := do
  let budget ← store.budget.rescale multiplier
  return { store with budget := budget }.trimTo budget.limit

def trim (store : Lru κ α) (pressure : Pressure) : List (Entry κ α) × Lru κ α :=
  match pressure.retention with
  | .everything => ([], store)
  | .half => store.trimTo (halfSize store.limit)
  | .nothing => store.clear

end Lru

end MemoryBudget
