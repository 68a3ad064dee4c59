import MemoryBudget.Cache.Basic

/-!
# Clients of caches

Ways to price values and to react to departures: ignore them, record them, pass them to a second cache, look at
the cache from inside, or put a cheaper copy back.
-/

set_option autoImplicit false

namespace MemoryBudget

namespace Cache

/-- A value that knows its price. Two of them are equal when their labels are, whatever the prices. -/
structure Priced where
  label : Option String
  price : UInt64

namespace Priced

instance : BEq Priced := ⟨fun one other => one.label == other.label⟩

def cheaper? (value : Priced) : Option Priced :=
  if 1 < value.price then some { value with price := value.price / 2 } else none

end Priced

structure Finding (α : Type) where
  /-- What is now under the key. -/
  resident : Option α
  usage : Usage

structure Sighting (κ α : Type) where
  key : κ
  value : α
  cause : Cause
  finding : Option (Finding α)

structure Diary (κ α : Type) where
  sightings : Array (Sighting κ α)
  priced : Nat

namespace Diary

variable {κ α : Type}

def empty : Diary κ α := { sightings := #[], priced := 0 }

def record (diary : Diary κ α) (departure : Departure κ α) (finding : Option (Finding α)) : Diary κ α :=
  let entry := departure.entry
  { diary with sightings := diary.sightings.push ⟨entry.key, entry.value, departure.cause, finding⟩ }

def countPrice (diary : Diary κ α) : Diary κ α :=
  { diary with priced := diary.priced + 1 }

def turnPage (diary : Diary κ α) : Diary κ α :=
  { diary with sightings := #[] }

end Diary

variable {κ α φ : Type}

def unitPriced : Client (protocol κ α) φ
  | .price _ => pure (1 : UInt64)
  | .departed _ => pure ()

def recorder (price : α → UInt64) : Client (protocol κ α) (Diary κ α)
  | .price value => do
      Script.note Diary.countPrice
      pure (price value)
  | .departed departure => Script.note (·.record departure none)

def recordingAttendant [BEq κ] [Hashable κ] (price : α → UInt64) : Attendant (protocol κ α) (Lru κ α) (Diary κ α) :=
  .aloof fun
    | .price value, diary => (price value, diary.countPrice)
    | .departed departure, diary => ((), diary.record departure none)

structure SecondTier (κ α : Type) [BEq κ] [Hashable κ] where
  store : Lru κ α
  diary : Diary κ α

def cascading [BEq κ] [Hashable κ] [BEq α] (price : α → UInt64) :
    Client (protocol κ α) (SecondTier κ α)
  | .price value => pure (price value)
  | .departed departure => Script.note fun second =>
      let request := Call.put departure.entry.key departure.entry.value
      let (_, store, diary) := service.perform (recordingAttendant price) request second.store second.diary
      { store := store, diary := diary }

def observe (departure : Departure κ α) : Script (protocol κ α) (Diary κ α) Unit := do
  let resident ← Script.ask (P := protocol κ α) (.peek departure.entry.key)
  let usage ← Script.ask (P := protocol κ α) .usage
  Script.note (·.record departure (some ⟨resident, usage⟩))

def observer (price : α → UInt64) : Client (protocol κ α) (Diary κ α)
  | .price value => pure (price value)
  | .departed departure => observe departure

/-- An observer that puts a cheaper copy of an evicted value back under its key, from inside the departure. -/
def demoter (price : α → UInt64) (cheaper? : α → Option α) : Client (protocol κ α) (Diary κ α)
  | .price value => pure (price value)
  | .departed departure => do
      observe departure
      match departure.cause, cheaper? departure.entry.value with
      | .evicted, some value =>
          let _ ← Script.ask (P := protocol κ α) (.put departure.entry.key value)
          pure ()
      | _, _ => pure ()

end Cache

end MemoryBudget
