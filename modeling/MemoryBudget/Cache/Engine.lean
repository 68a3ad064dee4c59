import MemoryBudget.Cache.Basic
import MemoryBudget.Dialogue.Engine

/-!
# Caches as engines

What each call does to the store all at once, and which departures the client is told of afterwards. No reply
depends on what the client does about them.
-/

set_option autoImplicit false

namespace MemoryBudget

namespace Cache

variable {κ α ρ : Type}

def departing (departures : List (Departure κ α)) (reply : ρ) : Aftermath (protocol κ α) ρ :=
  { reports := departures.map .departed, reply := .known reply }

variable [BEq κ] [Hashable κ] [BEq α]

def putting (key : κ) (value : α) (cost : UInt64) : Transaction (protocol κ α) (Lru κ α) (Option α) := fun store =>
  let ((departures, previous), store) := store.exchange ⟨key, value, cost⟩
  (departing departures previous, store)

def rescaling (multiplier : Multiplier) :
    Transaction (protocol κ α) (Lru κ α) (Except InvalidMultiplier Unit) := fun store =>
  match store.rescale multiplier with
  | .ok (evicted, store) => (departing (evictions evicted) (.ok ()), store)
  | .error invalid => (departing [] (.error invalid), store)

def engine : Engine (protocol κ α) (Lru κ α) where
  transaction
    | .put key value => .asked (.price value) (putting key value)
    | .get key => .known fun store =>
        let (found, store) := store.get key
        (departing [] found, store)
    | .peek key => .known fun store => (departing [] (store.peek? key), store)
    | .remove key => .known fun store =>
        let (removed, store) := store.remove key
        (departing [] (removed.map (·.value)), store)
    | .contains key => .known fun store => (departing [] (store.contains key), store)
    | .trimTo target => .known fun store =>
        let (evicted, store) := store.trimTo target
        (departing (evictions evicted) (), store)
    | .clear => .known fun store =>
        let (evicted, store) := store.clear
        (departing (evictions evicted) (), store)
    | .trim pressure => .known fun store =>
        let (evicted, store) := store.trim pressure
        (departing (evictions evicted) (), store)
    | .rescale multiplier => .known (rescaling multiplier)
    | .usage => .known fun store => (departing [] store.usage, store)

end Cache

end MemoryBudget
