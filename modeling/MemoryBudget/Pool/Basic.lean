import MemoryBudget.Dialogue.Machine
import MemoryBudget.Pool.Stock

/-!
# Pools

A pool serves requests for objects of a shape from a stock of used ones, and asks its client for a new object
when it has none. It asks the client whether it may keep an object that is put, and hands back those it does
not keep. As with caches, it is up to date whenever it asks, and the client may call back.
-/

set_option autoImplicit false

namespace MemoryBudget

namespace Pool

inductive Care where
  /-- Recycled objects are wiped. -/
  | clean
  /-- Recycled objects keep their content. -/
  | dirty
  /-- Only the requested shape will do, however the pool matches; recycled objects are wiped. -/
  | exact
  deriving DecidableEq

inductive Call (α σ : Type) where
  | lookup (care : Care) (requested : σ)
  | put (item : α)
  | trimTo (target : UInt64)
  | clear
  | trim (pressure : Pressure)
  | rescale (multiplier : Multiplier)
  | usage
  | tally

inductive Query (α σ : Type) where
  | make (requested : σ)
  | approve (item : α)
  | discard (item : α)

def protocol (α σ : Type) : Protocol where
  Call := Call α σ
  Reply
    | .lookup _ _ => α
    | .put _ | .trimTo _ | .clear | .trim _ => Unit
    | .rescale _ => Except InvalidMultiplier Unit
    | .usage => Usage
    | .tally => Tally
  Query := Query α σ
  Answer
    | .make _ => α
    | .approve _ => Bool
    | .discard _ => Unit

variable {α σ : Type}

inductive Work : Call α σ → Type where
  | making (care : Care) (requested : σ) : Work (.lookup care requested)
  | vetting (item : α) : Work (.put item)
  | discarding {request : Call α σ} (item : α) (rest : List α)
      (reply : (protocol α σ).Reply request) : Work request

def Work.query {request : Call α σ} : Work request → Query α σ
  | .making _ requested => .make requested
  | .vetting item => .approve item
  | .discarding item _ _ => .discard item

def Work.phase {request : Call α σ} : Work request → Nat
  | .making _ _ => 1
  | .vetting _ => 1
  | .discarding _ _ _ => 0

def Work.backlog {request : Call α σ} : Work request → Nat
  | .making _ _ => 0
  | .vetting _ => 0
  | .discarding _ rest _ => rest.length

def discard {request : Call α σ} (reply : (protocol α σ).Reply request) :
    List α → Progress (Work request) ((protocol α σ).Reply request)
  | [] => .replied reply
  | item :: rest => .waiting (.discarding item rest reply)

theorem discard_waiting {request : Call α σ} {reply : (protocol α σ).Reply request}
    {items : List α} {later : Work request} (waits : discard reply items = .waiting later) :
    later.phase = 0 ∧ later.backlog < items.length := by
  cases items with
  | nil => cases waits
  | cons item rest =>
      cases waits
      exact ⟨rfl, Nat.lt_succ_self _⟩

/-- Once an object has been vetted, only discards are left. -/
theorem phase_lt_vetting {item : α} {reply : (protocol α σ).Reply (.put item)} {items : List α}
    {later : Work (.put item)} (waits : discard reply items = .waiting later) :
    later.phase < (.vetting item : Work (.put item : Call α σ)).phase := by
  rw [(discard_waiting waits).1]
  exact Nat.zero_lt_one

variable [DecidableEq σ] [Hashable σ] [Ord σ] [Recyclable α σ]

def Settings.admits (settings : Settings) (item : α) : Bool :=
  Recyclable.reusable item && settings.largestItem.all (Recyclable.byteSize item ≤ ·)

def start (settings : Settings) : (request : Call α σ) → Stock α σ →
    Progress (Work request) ((protocol α σ).Reply request) × Stock α σ
  | .lookup care requested, stock =>
      let (found, stock) := stock.take (if care = .exact then .exact else settings.matching) requested
      match found with
      | some item =>
          let served : α := if care = .dirty then item else Recyclable.wipe item
          (.replied served, stock)
      | none => (.waiting (.making care requested), stock)
  | .put item, stock =>
      if settings.admits item then (.waiting (.vetting item), stock)
      else (discard () [item], stock)
  | .trimTo target, stock =>
      let (evicted, stock) := stock.trimTo target
      (discard () evicted, stock)
  | .clear, stock =>
      let (evicted, stock) := stock.clear
      (discard () evicted, stock)
  | .trim pressure, stock =>
      let (evicted, stock) := stock.trim settings.clearsAt pressure
      (discard () evicted, stock)
  | .rescale multiplier, stock =>
      match stock.rescale multiplier with
      | .ok (evicted, stock) => (discard (.ok ()) evicted, stock)
      | .error invalid => (.replied (.error invalid), stock)
  | .usage, stock => (.replied stock.store.usage, stock)
  | .tally, stock => (.replied stock.tally, stock)

def resume {request : Call α σ} :
    (work : Work request) → (protocol α σ).Answer work.query → Stock α σ →
      Progress (Work request) ((protocol α σ).Reply request) × Stock α σ
  | .making _ _, item, stock => (.replied item, stock)
  | .vetting item, false, stock => (discard () [item], stock)
  | .vetting item, true, stock =>
      match stock.offer item with
      | (.refused item, stock) => (discard () [item], stock)
      | (.admitted evicted, stock) => (discard () evicted, stock)
  | .discarding _ rest reply, _, stock => (discard reply rest, stock)

theorem resume_advances {request : Call α σ} (work : Work request)
    (answer : (protocol α σ).Answer work.query) (stock : Stock α σ) (later : Work request)
    (stock' : Stock α σ) (progressed : resume work answer stock = (.waiting later, stock')) :
    later.phase < work.phase ∨ (later.phase = work.phase ∧ later.backlog < work.backlog) := by
  cases work with
  | making care requested => cases progressed
  | vetting item =>
      cases answer with
      | false => exact Or.inl (phase_lt_vetting (Prod.mk.inj progressed).1)
      | true =>
          simp only [resume] at progressed
          split at progressed <;> exact Or.inl (phase_lt_vetting (Prod.mk.inj progressed).1)
  | discarding item rest reply =>
      exact Or.inr (discard_waiting (Prod.mk.inj progressed).1)

def service (settings : Settings) : Service (protocol α σ) (Stock α σ) where
  Work := Work
  query := Work.query
  start := start settings
  resume := resume
  phase := Work.phase
  backlog := Work.backlog
  advances := resume_advances

end Pool

end MemoryBudget
