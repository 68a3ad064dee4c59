import MemoryBudget.Pool.Basic
import MemoryBudget.Dialogue.Engine

/-!
# Pools as engines

What each call does to the stock all at once, and which objects are handed back afterwards. Only the reply to a
request that finds nothing depends on the client, which is asked for a new object when the miss is counted.
-/

set_option autoImplicit false

namespace MemoryBudget

namespace Pool

variable {α σ ρ : Type}

def discarding (items : List α) (reply : ρ) : Aftermath (protocol α σ) ρ :=
  { reports := items.map .discard, reply := .known reply }

variable [DecidableEq σ] [Hashable σ] [Ord σ] [Recyclable α σ]

def Stock.serve (settings : Settings) (care : Care) (requested : σ) : Transaction (protocol α σ) (Stock α σ) α :=
  fun stock =>
    let (found, stock) := stock.take (if care = .exact then .exact else settings.matching) requested
    match found with
    | some item =>
        let served : α := if care = .dirty then item else Recyclable.wipe item
        (discarding [] served, stock)
    | none => (⟨[], .asked (.make requested) id⟩, stock)

def Stock.accept (item : α) (approved : Bool) : Transaction (protocol α σ) (Stock α σ) Unit := fun stock =>
  if approved then
    match stock.offer item with
    | (.refused item, stock) => (discarding [item] (), stock)
    | (.admitted evicted, stock) => (discarding evicted (), stock)
  else (discarding [item] (), stock)

def rescaling (multiplier : Multiplier) :
    Transaction (protocol α σ) (Stock α σ) (Except InvalidMultiplier Unit) := fun stock =>
  match stock.rescale multiplier with
  | .ok (evicted, stock) => (discarding evicted (.ok ()), stock)
  | .error invalid => (discarding [] (.error invalid), stock)

def engine (settings : Settings) : Engine (protocol α σ) (Stock α σ) where
  transaction
    | .lookup care requested => .known (Stock.serve settings care requested)
    | .put item =>
        if settings.admits item then .asked (.approve item) (Stock.accept item)
        else .known fun stock => (discarding [item] (), stock)
    | .trimTo target => .known fun stock =>
        let (evicted, stock) := stock.trimTo target
        (discarding evicted (), stock)
    | .clear => .known fun stock =>
        let (evicted, stock) := stock.clear
        (discarding evicted (), stock)
    | .trim pressure => .known fun stock =>
        let (evicted, stock) := stock.trim settings.clearsAt pressure
        (discarding evicted (), stock)
    | .rescale multiplier => .known (rescaling multiplier)
    | .usage => .known fun stock => (discarding [] stock.store.usage, stock)
    | .tally => .known fun stock => (discarding [] stock.tally, stock)

end Pool

end MemoryBudget
