import MemoryBudget.Dialogue.Machine
import MemoryBudget.Lru.Basic

/-!
# Caches

A cache is a store that asks its client what a value costs, once for each value that is put, and tells it about
every value that leaves other than by `remove`. It is up to date before the client is told, so the client may
call back: what it finds is the state after the whole change, and the entries still to be told about are
already gone.
-/

set_option autoImplicit false

namespace MemoryBudget

namespace Cache

inductive Cause where
  /-- It costs at least the whole limit and was never resident. -/
  | refused
  /-- A different value was put under its key. -/
  | displaced
  /-- It was among the coldest when room was wanted. -/
  | evicted
  deriving DecidableEq

structure Departure (κ α : Type) where
  entry : Entry κ α
  cause : Cause
  deriving DecidableEq

inductive Call (κ α : Type) where
  | put (key : κ) (value : α)
  | get (key : κ)
  | peek (key : κ)
  | remove (key : κ)
  | contains (key : κ)
  | trimTo (target : UInt64)
  | clear
  | trim (pressure : Pressure)
  | rescale (multiplier : Multiplier)
  | usage

inductive Query (κ α : Type) where
  | price (value : α)
  | departed (departure : Departure κ α)

def protocol (κ α : Type) : Protocol where
  Call := Call κ α
  Reply
    | .put _ _ | .get _ | .peek _ | .remove _ => Option α
    | .contains _ => Bool
    | .trimTo _ | .clear | .trim _ => Unit
    | .rescale _ => Except InvalidMultiplier Unit
    | .usage => Usage
  Query := Query κ α
  Answer
    | .price _ => UInt64
    | .departed _ => Unit

variable {κ α : Type}

/-- A call that waits for its client. -/
inductive Work : Call κ α → Type where
  | pricing (key : κ) (value : α) : Work (.put key value)
  | telling {request : Call κ α} (departure : Departure κ α) (rest : List (Departure κ α))
      (reply : (protocol κ α).Reply request) : Work request

def tell {request : Call κ α} (reply : (protocol κ α).Reply request) :
    List (Departure κ α) → Progress (Work request) ((protocol κ α).Reply request)
  | [] => .replied reply
  | departure :: rest => .waiting (.telling departure rest reply)

def evictions (entries : List (Entry κ α)) : List (Departure κ α) :=
  entries.map (⟨·, .evicted⟩)

def Work.query {request : Call κ α} : Work request → Query κ α
  | .pricing _ value => .price value
  | .telling departure _ _ => .departed departure

def Work.phase {request : Call κ α} : Work request → Nat
  | .pricing _ _ => 1
  | .telling _ _ _ => 0

def Work.backlog {request : Call κ α} : Work request → Nat
  | .pricing _ _ => 0
  | .telling _ rest _ => rest.length

theorem tell_waiting {request : Call κ α} {reply : (protocol κ α).Reply request}
    {departures : List (Departure κ α)} {later : Work request}
    (waits : tell reply departures = .waiting later) :
    later.phase = 0 ∧ later.backlog < departures.length := by
  cases departures with
  | nil => cases waits
  | cons departure rest =>
      cases waits
      exact ⟨rfl, Nat.lt_succ_self _⟩

end Cache

namespace Lru

variable {κ α : Type} [BEq κ] [Hashable κ]

open Cache

/-- Puts a priced value and tells who leaves: the value itself if it is refused; else the value it displaces,
unless that is equal to it, and then whoever makes room, coldest first. A displaced value is told of under the key that
was given, which is equal to the one it was stored under but need not be the same. -/
def exchange [BEq α] (store : Lru κ α) (offered : Entry κ α) :
    (List (Departure κ α) × Option α) × Lru κ α :=
  let displacing := (store.peek? offered.key).any (· != offered.value)
  match store.insert offered with
  | (.refused entry, store) => (([⟨entry, .refused⟩], none), store)
  | (.admitted previous evicted, store) =>
      let displaced :=
        if displacing then previous.toList.map fun entry => ⟨{ entry with key := offered.key }, .displaced⟩ else []
      ((displaced ++ evictions evicted, previous.map (·.value)), store)

end Lru

namespace Cache

variable {κ α : Type} [BEq κ] [Hashable κ] [BEq α]

def start : (request : Call κ α) → Lru κ α →
    Progress (Work request) ((protocol κ α).Reply request) × Lru κ α
  | .put key value, store => (.waiting (.pricing key value), store)
  | .get key, store =>
      let (found, store) := store.get key
      (.replied found, store)
  | .peek key, store => (.replied (store.peek? key), store)
  | .remove key, store =>
      let (removed, store) := store.remove key
      (.replied (removed.map (·.value)), store)
  | .contains key, store => (.replied (store.contains key), store)
  | .trimTo target, store =>
      let (evicted, store) := store.trimTo target
      (tell () (evictions evicted), store)
  | .clear, store =>
      let (evicted, store) := store.clear
      (tell () (evictions evicted), store)
  | .trim pressure, store =>
      let (evicted, store) := store.trim pressure
      (tell () (evictions evicted), store)
  | .rescale multiplier, store =>
      match store.rescale multiplier with
      | .ok (evicted, store) => (tell (.ok ()) (evictions evicted), store)
      | .error invalid => (.replied (.error invalid), store)
  | .usage, store => (.replied store.usage, store)

def resume {request : Call κ α} :
    (work : Work request) → (protocol κ α).Answer work.query → Lru κ α →
      Progress (Work request) ((protocol κ α).Reply request) × Lru κ α
  | .pricing key value, cost, store =>
      let ((departures, previous), store) := store.exchange ⟨key, value, cost⟩
      (tell previous departures, store)
  | .telling _ rest reply, _, store => (tell reply rest, store)

def service : Service (protocol κ α) (Lru κ α) where
  Work := Work
  query := Work.query
  start := start
  resume := resume
  phase := Work.phase
  backlog := Work.backlog
  advances work answer state later state' progressed := by
    cases work with
    | pricing key value =>
        have ⟨last, _⟩ := tell_waiting (Prod.mk.inj progressed).1
        exact Or.inl (by rw [last]; exact Nat.zero_lt_one)
    | telling departure rest reply =>
        exact Or.inr (tell_waiting (Prod.mk.inj progressed).1)

end Cache

end MemoryBudget
