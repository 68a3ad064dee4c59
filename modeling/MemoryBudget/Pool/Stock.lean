import MemoryBudget.Pool.Recyclable
import MemoryBudget.Pool.Buckets
import MemoryBudget.Lru.Basic

/-!
# Stocks

The objects a pool keeps. All of them share one budget and one order of recency, under a key of shape and
serial number; the buckets say which serial numbers a shape has. Each change touches both, and counts.
-/

set_option autoImplicit false

namespace MemoryBudget

namespace Pool

/-- The key of a resident object. No two objects share a serial number. -/
structure Ticket (σ : Type) where
  shape : σ
  serial : Nat
  deriving DecidableEq, Hashable

structure Stock (α σ : Type) [DecidableEq σ] [Hashable σ] where
  store : Lru (Ticket σ) α
  buckets : Buckets σ
  nextSerial : Nat
  tally : Tally

inductive Admission (α : Type) where
  /-- It is as large as the whole limit or larger. -/
  | refused (item : α)
  /-- It is resident; the objects that made room for it are listed coldest first. -/
  | admitted (evicted : List α)

namespace Stock

variable {α σ : Type} [DecidableEq σ] [Hashable σ]

def ofLimit (limit : UInt64) : Stock α σ :=
  { store := Lru.ofLimit limit, buckets := ⟨[]⟩, nextSerial := 0, tally := Tally.zero }

def items (stock : Stock α σ) : List α :=
  stock.store.entries.map (·.value)

variable [Ord σ]

def unlist (stock : Stock α σ) (evicted : List (Entry (Ticket σ) α)) : Stock α σ :=
  { stock with
    buckets := evicted.foldl (fun buckets entry => buckets.erase entry.key.shape entry.key.serial) stock.buckets
    tally := { stock.tally with evictions := stock.tally.evictions + evicted.length } }

def settle (stock : Stock α σ) (outcome : List (Entry (Ticket σ) α) × Lru (Ticket σ) α) :
    List α × Stock α σ :=
  (outcome.1.map (·.value), { stock with store := outcome.2 }.unlist outcome.1)

def trimTo (stock : Stock α σ) (target : UInt64) : List α × Stock α σ :=
  stock.settle (stock.store.trimTo target)

def clear (stock : Stock α σ) : List α × Stock α σ :=
  stock.settle stock.store.clear

/-- Gives way to memory pressure; from `clearsAt` on, everything goes. -/
def trim (stock : Stock α σ) (clearsAt pressure : Pressure) : List α × Stock α σ :=
  stock.settle
    (if clearsAt.level ≤ pressure.level then stock.store.clear else stock.store.trim pressure)

def rescale (stock : Stock α σ) (multiplier : Multiplier) :
    Except InvalidMultiplier (List α × Stock α σ) := do
  let outcome ← stock.store.rescale multiplier
  return stock.settle outcome

variable [Recyclable α σ]

def find? (stock : Stock α σ) (matching : Matching) (requested : σ) : Option σ :=
  match matching with
  | .exact => (stock.buckets.find? requested).map fun _ => requested
  | .atLeast => do
      let candidate ← stock.buckets.leastFrom? requested
      if Recyclable.serves α requested candidate stock.store.budget.roomy then some candidate else none

def withdraw? (stock : Stock α σ) (matching : Matching) (requested : σ) : Option (α × Stock α σ) := do
  let shape ← stock.find? matching requested
  let (serial, buckets) ← stock.buckets.pop? shape
  let (removed, store) := stock.store.remove ⟨shape, serial⟩
  let entry ← removed
  return (entry.value, { stock with store := store, buckets := buckets })

def take (stock : Stock α σ) (matching : Matching) (requested : σ) : Option α × Stock α σ :=
  match stock.withdraw? matching requested with
  | some (item, stock) => (some item, { stock with tally := { stock.tally with hits := stock.tally.hits + 1 } })
  | none => (none, { stock with tally := { stock.tally with misses := stock.tally.misses + 1 } })

/-- Offers an object, which has a serial number from then on even if it is refused. -/
def offer (stock : Stock α σ) (item : α) : Admission α × Stock α σ :=
  let shape := Recyclable.shape item
  let serial := stock.nextSerial
  let stock := { stock with nextSerial := serial + 1 }
  match stock.store.insert ⟨⟨shape, serial⟩, item, Recyclable.byteSize item⟩ with
  | (.refused entry, store) => (.refused entry.value, { stock with store := store })
  | (.admitted _ evicted, store) =>
      let (items, stock) := { stock with
        buckets := stock.buckets.push shape serial
        tally := { stock.tally with puts := stock.tally.puts + 1 } }.settle (evicted, store)
      (.admitted items, stock)

end Stock

end Pool

end MemoryBudget
