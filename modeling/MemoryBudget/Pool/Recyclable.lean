import MemoryBudget.Pressure

/-!
# Objects that are used again

What a pool has to know about the objects it keeps, and how it is configured.
-/

set_option autoImplicit false

namespace MemoryBudget

/-- Objects of type `α` that whoever asks for their shape may be handed again. -/
class Recyclable (α : Type) (σ : outParam Type) where
  shape : α → σ
  byteSize : α → UInt64
  /-- Clears the content, so that the object looks new. -/
  wipe : α → α
  reusable : α → Bool
  /-- Whether an object of shape `candidate` may serve a request for another shape. A pool that uses at most
  half of its budget is `roomy`. -/
  serves (requested candidate : σ) (roomy : Bool) : Bool

namespace Pool

/-- Makes new objects, and says which used ones may be kept. -/
structure Supplier (α σ : Type) where
  allocate : σ → α
  approves : α → Bool

inductive Matching where
  /-- Only the requested one. -/
  | exact
  /-- The least resident shape that is not below the requested one, if it serves. -/
  | atLeast
  deriving DecidableEq

structure Settings where
  limit : UInt64
  /-- Larger objects are not kept, even where the limit has room for them. -/
  largestItem : Option UInt64
  matching : Matching
  /-- Memory pressure from here on empties the pool. -/
  clearsAt : Pressure
  deriving DecidableEq

structure Draft where
  limit : Option UInt64
  largestItem : Option UInt64
  matching : Option Matching
  clearsAt : Option Pressure

inductive Incomplete where
  | limit
  deriving DecidableEq

def Incomplete.message : Incomplete → String
  | .limit => "`max_size` must be initialized"

/-- Closes a draft: any size of item, only the exact shape, and empty in the background, where nothing else is
said. There is no default limit. -/
def Draft.settle (draft : Draft) : Except Incomplete Settings :=
  match draft.limit with
  | none => .error .limit
  | some limit =>
      .ok {
        limit := limit
        largestItem := draft.largestItem
        matching := draft.matching.getD .exact
        clearsAt := draft.clearsAt.getD Pressure.background }

structure Tally where
  hits : Nat
  misses : Nat
  puts : Nat
  evictions : Nat
  deriving DecidableEq

def Tally.zero : Tally := { hits := 0, misses := 0, puts := 0, evictions := 0 }

end Pool

end MemoryBudget
