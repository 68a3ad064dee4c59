import MemoryBudget.Cache.Basic
import MemoryBudget.Shared.Custody

/-!
# Caches of shared values

A cache whose entries are handles. Each entry owns one handle to its allocation. An entry that leaves because of
the budget, or because a handle to another allocation displaced it, gives a handle to the listener that is
installed at that moment; without a listener it is dropped. A handle that is removed goes to the caller, and one
that is refused is dropped and not reported.

Clients own handles too. Every copy and every drop is counted where it happens, so the number of handles that a
listener sees includes those still on their way: the rest of the batch that is being reported, and the handle that
a put is about to return.
-/

set_option autoImplicit false

namespace MemoryBudget

namespace Shared

variable {κ ν ℓ : Type}

structure State (κ ν ℓ : Type) [BEq κ] [Hashable κ] where
  store : Lru κ Handle
  allocations : Allocations ν
  custody : Custody
  listener : Option ℓ

structure View (ν : Type) where
  value : ν
  size : UInt64
  handles : Nat
  /-- The names under which clients keep the same allocation. -/
  names : List String

inductive Call (κ ν ℓ : Type) where
  /-- Allocates a value and takes its handle in hand. -/
  | make (value : ν) (size : UInt64)
  /-- Copies a named handle, with a size of its own if one is given. -/
  | copy (name : String) (size : Option UInt64)
  /-- Takes a named handle in hand; the name is free then. -/
  | take (name : String)
  /-- Names the handle in hand. A handle that had the name is dropped. -/
  | name (name : String)
  | putAside
  | drop
  /-- Drops every handle that was put aside, and tells how many there were. -/
  | dropAside
  | inspect
  /-- Gives up the handle in hand, for its value if no other handle is alive. -/
  | reclaim
  /-- Puts the handle in hand into the cache. The one it replaces comes to hand. -/
  | put (key : κ)
  /-- A copy of the handle under a key comes to hand. -/
  | get (key : κ)
  /-- The handle under a key comes to hand. -/
  | remove (key : κ)
  | contains (key : κ)
  | clear
  | trim (pressure : Pressure)
  | rescale (multiplier : Multiplier)
  | usage
  | listen (listener : ℓ)

inductive Query (ℓ : Type) where
  /-- The handle is in hand when the listener is told. -/
  | removed (listener : ℓ) (handle : Handle)

/-- What is said between such a cache and its clients. Replies of type `Bool` tell whether there was such a
handle. -/
def protocol (κ ν ℓ : Type) : Protocol where
  Call := Call κ ν ℓ
  Reply
    | .make _ _ | .clear | .trim _ | .listen _ => Unit
    | .copy _ _ | .take _ | .name _ | .putAside | .drop => Bool
    | .dropAside => Nat
    | .inspect => Option (View ν)
    | .reclaim => Option ν
    | .put _ | .get _ | .remove _ | .contains _ => Bool
    | .rescale _ => Except InvalidMultiplier Unit
    | .usage => Usage
  Query := Query ℓ
  Answer _ := Unit

/-- A call that waits for a listener: the handle it was told about, the handles still to be reported, and the
handle that comes to hand in the end. -/
structure Work (request : Call κ ν ℓ) where
  listener : ℓ
  reported : Handle
  pending : List Handle
  returning : Option Handle
  reply : (protocol κ ν ℓ).Reply request

namespace State

variable [BEq κ] [Hashable κ]

def ofLimit (limit : UInt64) : State κ ν ℓ :=
  { store := Lru.ofLimit limit, allocations := Allocations.empty, custody := Custody.empty, listener := none }

def grasp (state : State κ ν ℓ) (handle : Handle) : State κ ν ℓ :=
  { state with custody := state.custody.grasp handle }

def countCopy (state : State κ ν ℓ) (handle : Handle) : State κ ν ℓ :=
  { state with allocations := state.allocations.copy handle }

def countDrop (state : State κ ν ℓ) (handle : Handle) : State κ ν ℓ :=
  { state with allocations := state.allocations.drop handle }

def withHand {α : Type} (state : State κ ν ℓ) (otherwise : α)
    (pass : State κ ν ℓ → Handle → α × State κ ν ℓ) : α × State κ ν ℓ :=
  match state.custody.letGo? with
  | none => (otherwise, state)
  | some (handle, custody) => pass { state with custody := custody } handle

def make (state : State κ ν ℓ) (value : ν) (size : UInt64) : State κ ν ℓ :=
  let (handle, allocations) := state.allocations.allocate value size
  { state with allocations := allocations }.grasp handle

def copyNamed (state : State κ ν ℓ) (name : String) (size : Option UInt64) : Bool × State κ ν ℓ :=
  match state.custody.named? name with
  | none => (false, state)
  | some handle => (true, (state.countCopy handle).grasp { handle with size := size.getD handle.size })

def takeNamed (state : State κ ν ℓ) (name : String) : Bool × State κ ν ℓ :=
  match state.custody.unname? name with
  | none => (false, state)
  | some (handle, custody) => (true, { state with custody := custody }.grasp handle)

def nameHand (state : State κ ν ℓ) (name : String) : Bool × State κ ν ℓ :=
  state.withHand false fun state handle =>
    let state :=
      match state.custody.unname? name with
      | none => state
      | some (older, custody) => { state with custody := custody }.countDrop older
    (true, { state with custody := state.custody.assign name handle })

def putHandAside (state : State κ ν ℓ) : Bool × State κ ν ℓ :=
  state.withHand false fun state handle => (true, { state with custody := state.custody.putAside handle })

def dropHand (state : State κ ν ℓ) : Bool × State κ ν ℓ :=
  state.withHand false fun state handle => (true, state.countDrop handle)

def dropAside (state : State κ ν ℓ) : Nat × State κ ν ℓ :=
  let aside := state.custody.aside
  (aside.length, aside.foldl countDrop { state with custody := { state.custody with aside := [] } })

def view? (state : State κ ν ℓ) (handle : Handle) : Option (View ν) :=
  (state.allocations.value? handle).map fun value =>
    { value := value, size := handle.size, handles := state.allocations.handles handle
      names := state.custody.namesOf handle }

def reclaimHand (state : State κ ν ℓ) : Option ν × State κ ν ℓ :=
  state.withHand none fun state handle =>
    let (value, allocations) := state.allocations.reclaim handle
    (value, { state with allocations := allocations })

def fetch (state : State κ ν ℓ) (key : κ) : Bool × State κ ν ℓ :=
  let (found, store) := state.store.get key
  let state := { state with store := store }
  match found with
  | none => (false, state)
  | some handle => (true, (state.countCopy handle).grasp handle)

def withdraw (state : State κ ν ℓ) (key : κ) : Bool × State κ ν ℓ :=
  let (removed, store) := state.store.remove key
  let state := { state with store := store }
  match removed with
  | none => (false, state)
  | some entry => (true, state.grasp entry.value)

/-- Sorts out who left because of a put. A refused handle is dropped at once. A displaced one is about to be
returned, so a copy of it is reported. -/
def collect : List (Cache.Departure κ Handle) → State κ ν ℓ → List Handle × State κ ν ℓ
  | [], state => ([], state)
  | ⟨entry, cause⟩ :: rest, state =>
      match cause with
      | .refused => collect rest (state.countDrop entry.value)
      | .displaced =>
          let (handles, state) := collect rest (state.countCopy entry.value)
          (entry.value :: handles, state)
      | .evicted =>
          let (handles, state) := collect rest state
          (entry.value :: handles, state)

def exchange (state : State κ ν ℓ) (key : κ) (handle : Handle) :
    (List Handle × Option Handle) × State κ ν ℓ :=
  let ((departures, previous), store) := state.store.exchange ⟨key, handle, handle.size⟩
  let (reported, state) := collect departures { state with store := store }
  ((reported, previous), state)

end State

variable [BEq κ] [Hashable κ]

/-- Reports handle after handle to the listener that is then installed, or drops it if there is none, and in the
end hands over what is to be returned. -/
def report {request : Call κ ν ℓ} (reply : (protocol κ ν ℓ).Reply request) (returning : Option Handle) :
    List Handle → State κ ν ℓ → Progress (Work request) ((protocol κ ν ℓ).Reply request) × State κ ν ℓ
  | [], state => (.replied reply, returning.elim state state.grasp)
  | handle :: pending, state =>
      match state.listener with
      | none => report reply returning pending (state.countDrop handle)
      | some listener =>
          (.waiting ⟨listener, handle, pending, returning, reply⟩, state.grasp handle)

def values (entries : List (Entry κ Handle)) : List Handle :=
  entries.map (·.value)

def start : (request : Call κ ν ℓ) → State κ ν ℓ →
    Progress (Work request) ((protocol κ ν ℓ).Reply request) × State κ ν ℓ
  | .make value size, state => (.replied (), state.make value size)
  | .copy name size, state =>
      let (found, state) := state.copyNamed name size
      (.replied found, state)
  | .take name, state =>
      let (found, state) := state.takeNamed name
      (.replied found, state)
  | .name name, state =>
      let (found, state) := state.nameHand name
      (.replied found, state)
  | .putAside, state =>
      let (found, state) := state.putHandAside
      (.replied found, state)
  | .drop, state =>
      let (found, state) := state.dropHand
      (.replied found, state)
  | .dropAside, state =>
      let (count, state) := state.dropAside
      (.replied count, state)
  | .inspect, state => (.replied (state.custody.inHand.head?.bind state.view?), state)
  | .reclaim, state =>
      let (value, state) := state.reclaimHand
      (.replied value, state)
  | .put key, state =>
      match state.custody.letGo? with
      | none => (.replied false, state)
      | some (handle, custody) =>
          let ((reported, previous), state) := { state with custody := custody }.exchange key handle
          report previous.isSome previous reported state
  | .get key, state =>
      let (found, state) := state.fetch key
      (.replied found, state)
  | .remove key, state =>
      let (found, state) := state.withdraw key
      (.replied found, state)
  | .contains key, state => (.replied (state.store.contains key), state)
  | .clear, state =>
      let (evicted, store) := state.store.clear
      report () none (values evicted) { state with store := store }
  | .trim pressure, state =>
      let (evicted, store) := state.store.trim pressure
      report () none (values evicted) { state with store := store }
  | .rescale multiplier, state =>
      match state.store.rescale multiplier with
      | .ok (evicted, store) => report (.ok ()) none (values evicted) { state with store := store }
      | .error invalid => (.replied (.error invalid), state)
  | .usage, state => (.replied state.store.usage, state)
  | .listen listener, state => (.replied (), { state with listener := some listener })

def Work.query {request : Call κ ν ℓ} (work : Work request) : Query ℓ :=
  .removed work.listener work.reported

def resume {request : Call κ ν ℓ} (work : Work request) (_ : Unit) (state : State κ ν ℓ) :
    Progress (Work request) ((protocol κ ν ℓ).Reply request) × State κ ν ℓ :=
  report work.reply work.returning work.pending state

theorem report_waiting {request : Call κ ν ℓ} {reply : (protocol κ ν ℓ).Reply request}
    {returning : Option Handle} {handles : List Handle} {state state' : State κ ν ℓ} {later : Work request}
    (waits : report reply returning handles state = (.waiting later, state')) :
    later.pending.length < handles.length := by
  induction handles generalizing state with
  | nil => cases waits
  | cons handle pending shorter =>
      simp only [report] at waits
      split at waits
      · exact Nat.lt_succ_of_lt (shorter waits)
      · cases waits
        exact Nat.lt_succ_self _

def service : Service (protocol κ ν ℓ) (State κ ν ℓ) where
  Work := Work
  query := Work.query
  start := start
  resume := resume
  phase _ := 0
  backlog work := work.pending.length
  advances _ _ _ _ _ progressed := Or.inr ⟨rfl, report_waiting progressed⟩

end Shared

end MemoryBudget
