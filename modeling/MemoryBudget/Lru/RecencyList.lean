import MemoryBudget.Lru.Operation

/-!
# Stores as plain lists

What a store does, said without slots, links or an index: its state is the list of its entries, freshest first,
and what is in use is the sum of their costs. This is the meaning against which the slot arena is measured.
-/

set_option autoImplicit false

namespace MemoryBudget

structure RecencyList (κ α : Type) where
  base : UInt64
  limit : UInt64
  /-- Freshest first. -/
  entries : List (Entry κ α)

namespace RecencyList

variable {κ α : Type}

/-- The exact sum of the costs, which no word bounds. -/
def totalCost : List (Entry κ α) → Nat
  | [] => 0
  | entry :: rest => entry.cost.toNat + totalCost rest

def longestWithin (target : Nat) : List (Entry κ α) → List (Entry κ α)
  | [] => []
  | entry :: rest =>
      if entry.cost.toNat ≤ target then entry :: longestWithin (target - entry.cost.toNat) rest else []

/-- Splits the entries into those that stay within `target` and the others, coldest first. -/
def split (target : Nat) (entries : List (Entry κ α)) : List (Entry κ α) × List (Entry κ α) :=
  let kept := longestWithin target entries
  (kept, (entries.drop kept.length).reverse)

def ofLimit (limit : UInt64) : RecencyList κ α :=
  { base := limit, limit := limit, entries := [] }

def used (store : RecencyList κ α) : Nat := totalCost store.entries

def count (store : RecencyList κ α) : Nat := store.entries.length

def trimTo (store : RecencyList κ α) (target : UInt64) : List (Entry κ α) × RecencyList κ α :=
  let (kept, evicted) := split target.toNat store.entries
  (evicted, { store with entries := kept })

def clear (store : RecencyList κ α) : List (Entry κ α) × RecencyList κ α :=
  (store.entries.reverse, { store with entries := [] })

def rescale (store : RecencyList κ α) (multiplier : Multiplier) :
    Except InvalidMultiplier (List (Entry κ α) × RecencyList κ α) := do
  multiplier.validate
  let limit := scaleSize store.base multiplier
  return { store with limit := limit }.trimTo limit

variable [BEq κ]

def find? (store : RecencyList κ α) (key : κ) : Option (Entry κ α) :=
  store.entries.find? (·.key == key)

def others (store : RecencyList κ α) (key : κ) : List (Entry κ α) :=
  store.entries.filter (!·.key == key)

def get (store : RecencyList κ α) (key : κ) : Option α × RecencyList κ α :=
  match store.find? key with
  | none => (none, store)
  | some entry => (some entry.value, { store with entries := entry :: store.others key })

def remove (store : RecencyList κ α) (key : κ) : Option (Entry κ α) × RecencyList κ α :=
  (store.find? key, { store with entries := store.others key })

def insert (store : RecencyList κ α) (entry : Entry κ α) : Placement κ α × RecencyList κ α :=
  if store.limit ≤ entry.cost then
    (.refused entry, store)
  else
    let room := store.limit.toNat - entry.cost.toNat
    let (kept, evicted) := split room (store.others entry.key)
    (.admitted (store.find? entry.key) evicted, { store with entries := entry :: kept })

def perform (store : RecencyList κ α) : Lru.Operation κ α → Lru.Outcome κ α × RecencyList κ α
  | .insert entry =>
      let (placement, store) := store.insert entry
      (.placed placement, store)
  | .get key =>
      let (value, store) := store.get key
      (.found value, store)
  | .peek key => (.found ((store.find? key).map (·.value)), store)
  | .contains key => (.present (store.find? key).isSome, store)
  | .remove key =>
      let (entry, store) := store.remove key
      (.removed entry, store)
  | .trimTo target =>
      let (entries, store) := store.trimTo target
      (.evicted entries, store)
  | .clear =>
      let (entries, store) := store.clear
      (.evicted entries, store)
  | .rescale multiplier =>
      match store.rescale multiplier with
      | .ok (entries, store) => (.rescaled (.ok entries), store)
      | .error invalid => (.rescaled (.error invalid), store)

def run (store : RecencyList κ α) : List (Lru.Operation κ α) → List (Lru.Outcome κ α) × RecencyList κ α
  | [] => ([], store)
  | operation :: rest =>
      let (outcome, store) := store.perform operation
      let (outcomes, store) := run store rest
      (outcome :: outcomes, store)

end RecencyList

end MemoryBudget
