import MemoryBudget.Lru.Basic

/-!
# Operations on stores

The operations of a store and their outcomes as values, so that whole runs can be spoken of. `Lru.run` performs a
list of operations and collects the outcomes.
-/

set_option autoImplicit false

namespace MemoryBudget

namespace Lru

inductive Operation (κ α : Type) where
  | insert (entry : Entry κ α)
  | get (key : κ)
  | peek (key : κ)
  | contains (key : κ)
  | remove (key : κ)
  | trimTo (target : UInt64)
  | clear
  | rescale (multiplier : Multiplier)

inductive Outcome (κ α : Type) where
  | placed (placement : Placement κ α)
  | found (value : Option α)
  | present (answer : Bool)
  | removed (entry : Option (Entry κ α))
  | evicted (entries : List (Entry κ α))
  | rescaled (outcome : Except InvalidMultiplier (List (Entry κ α)))

variable {κ α : Type} [BEq κ] [Hashable κ]

def perform (store : Lru κ α) : Operation κ α → Outcome κ α × Lru κ α
  | .insert entry =>
      let (placement, store) := store.insert entry
      (.placed placement, store)
  | .get key =>
      let (value, store) := store.get key
      (.found value, store)
  | .peek key => (.found (store.peek? key), store)
  | .contains key => (.present (store.contains key), store)
  | .remove key =>
      let (entry, store) := store.remove key
      (.removed entry, store)
  | .trimTo target =>
      let (entries, store) := store.trimTo target
      (.evicted entries, store)
  | .clear =>
      let (entries, store) := store.clear
      (.evicted entries, store)
  | .rescale multiplier =>
      match store.rescale multiplier with
      | .ok (entries, store) => (.rescaled (.ok entries), store)
      | .error invalid => (.rescaled (.error invalid), store)

def run (store : Lru κ α) : List (Operation κ α) → List (Outcome κ α) × Lru κ α
  | [] => ([], store)
  | operation :: rest =>
      let (outcome, store) := store.perform operation
      let (outcomes, store) := run store rest
      (outcome :: outcomes, store)

end Lru

end MemoryBudget
