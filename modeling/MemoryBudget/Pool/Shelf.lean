import MemoryBudget.Pool.Basic
import MemoryBudget.Lru.RecencyList

/-!
# Pools as plain lists

What a pool does, said without serial numbers and buckets: its state is the list of its objects, most recently
put first, and a request takes the first object of the shape that serves it. This is the meaning against which
the stock is measured.
-/

set_option autoImplicit false

namespace MemoryBudget

namespace Pool

structure Shelf (α : Type) where
  base : UInt64
  limit : UInt64
  /-- Most recently put first. -/
  items : List α
  tally : Tally

namespace Shelf

variable {α σ : Type}

def ofLimit (limit : UInt64) : Shelf α :=
  { base := limit, limit := limit, items := [], tally := Tally.zero }

variable [Recyclable α σ]

def totalSize : List α → Nat
  | [] => 0
  | item :: rest => (Recyclable.byteSize item).toNat + totalSize rest

def roomy (shelf : Shelf α) : Bool :=
  2 * totalSize shelf.items ≤ shelf.limit.toNat

def longestWithin (target : Nat) : List α → List α
  | [] => []
  | item :: rest =>
      let size := (Recyclable.byteSize item).toNat
      if size ≤ target then item :: longestWithin (target - size) rest else []

/-- Keeps what stays within `target`. The other objects are listed coldest first, and counted. -/
def trimTo (shelf : Shelf α) (target : Nat) : List α × Shelf α :=
  let kept := longestWithin target shelf.items
  let evicted := (shelf.items.drop kept.length).reverse
  (evicted, { shelf with
    items := kept
    tally := { shelf.tally with evictions := shelf.tally.evictions + evicted.length } })

def clear (shelf : Shelf α) : List α × Shelf α :=
  (shelf.items.reverse, { shelf with
    items := []
    tally := { shelf.tally with evictions := shelf.tally.evictions + shelf.items.length } })

def trim (shelf : Shelf α) (clearsAt pressure : Pressure) : List α × Shelf α :=
  if clearsAt.level ≤ pressure.level then shelf.clear
  else
    match pressure.retention with
    | .everything => ([], shelf)
    | .half => shelf.trimTo (halfSize shelf.limit).toNat
    | .nothing => shelf.clear

def rescale (shelf : Shelf α) (multiplier : Multiplier) :
    Except InvalidMultiplier (List α × Shelf α) := do
  multiplier.validate
  let limit := scaleSize shelf.base multiplier
  return { shelf with limit := limit }.trimTo limit.toNat

def usage (shelf : Shelf α) : Usage :=
  { limit := shelf.limit, used := UInt64.ofNat (totalSize shelf.items), count := shelf.items.length }

def offer (shelf : Shelf α) (item : α) : Admission α × Shelf α :=
  let size := Recyclable.byteSize item
  if shelf.limit ≤ size then
    (.refused item, shelf)
  else
    let (evicted, shelf) := shelf.trimTo (shelf.limit.toNat - size.toNat)
    (.admitted evicted, { shelf with
      items := item :: shelf.items
      tally := { shelf.tally with puts := shelf.tally.puts + 1 } })

def resume {request : Call α σ} :
    (work : Work request) → (protocol α σ).Answer work.query → Shelf α →
      Progress (Work request) ((protocol α σ).Reply request) × Shelf α
  | .making _ _, item, shelf => (.replied item, shelf)
  | .vetting item, false, shelf => (discard () [item], shelf)
  | .vetting item, true, shelf =>
      match shelf.offer item with
      | (.refused item, shelf) => (discard () [item], shelf)
      | (.admitted evicted, shelf) => (discard () evicted, shelf)
  | .discarding _ rest reply, _, shelf => (discard reply rest, shelf)

theorem resume_advances {request : Call α σ} (work : Work request)
    (answer : (protocol α σ).Answer work.query) (shelf : Shelf α) (later : Work request)
    (shelf' : Shelf α) (progressed : resume work answer shelf = (.waiting later, shelf')) :
    later.phase < work.phase ∨ (later.phase = work.phase ∧ later.backlog < work.backlog) := by
  cases work with
  | making care requested => cases progressed
  | vetting item =>
      cases answer with
      | false => exact Or.inl (phase_lt_vetting (Prod.mk.inj progressed).1)
      | true =>
          simp only [resume] at progressed
          split at progressed <;> exact Or.inl (phase_lt_vetting (Prod.mk.inj progressed).1)
  | discarding item rest reply => exact Or.inr (discard_waiting (Prod.mk.inj progressed).1)

variable [Ord σ] [DecidableEq σ]

def leastFrom? (requested : σ) : List σ → Option σ
  | [] => none
  | shape :: rest =>
      match compare shape requested, leastFrom? requested rest with
      | .lt, least => least
      | _, none => some shape
      | _, some least => if compare least shape == .lt then some least else some shape

def serving? (shelf : Shelf α) (matching : Matching) (requested : σ) : Option σ :=
  match matching with
  | .exact => some requested
  | .atLeast => do
      let candidate ← leastFrom? requested (shelf.items.map Recyclable.shape)
      if Recyclable.serves α requested candidate shelf.roomy then some candidate else none

def take (shelf : Shelf α) (matching : Matching) (requested : σ) : Option α × Shelf α :=
  let served := fun (item : α) => shelf.serving? matching requested == some (Recyclable.shape item)
  match shelf.items.find? served with
  | some item =>
      (some item, { shelf with
        items := shelf.items.eraseP served
        tally := { shelf.tally with hits := shelf.tally.hits + 1 } })
  | none => (none, { shelf with tally := { shelf.tally with misses := shelf.tally.misses + 1 } })

def start (settings : Settings) : (request : Call α σ) → Shelf α →
    Progress (Work request) ((protocol α σ).Reply request) × Shelf α
  | .lookup care requested, shelf =>
      let (found, shelf) := shelf.take (if care = .exact then .exact else settings.matching) requested
      match found with
      | some item =>
          let served : α := if care = .dirty then item else Recyclable.wipe item
          (.replied served, shelf)
      | none => (.waiting (.making care requested), shelf)
  | .put item, shelf =>
      if settings.admits item then (.waiting (.vetting item), shelf)
      else (discard () [item], shelf)
  | .trimTo target, shelf =>
      let (evicted, shelf) := shelf.trimTo target.toNat
      (discard () evicted, shelf)
  | .clear, shelf =>
      let (evicted, shelf) := shelf.clear
      (discard () evicted, shelf)
  | .trim pressure, shelf =>
      let (evicted, shelf) := shelf.trim settings.clearsAt pressure
      (discard () evicted, shelf)
  | .rescale multiplier, shelf =>
      match shelf.rescale multiplier with
      | .ok (evicted, shelf) => (discard (.ok ()) evicted, shelf)
      | .error invalid => (.replied (.error invalid), shelf)
  | .usage, shelf => (.replied shelf.usage, shelf)
  | .tally, shelf => (.replied shelf.tally, shelf)

def service (settings : Settings) : Service (protocol α σ) (Shelf α) where
  Work := Work
  query := Work.query
  start := start settings
  resume := resume
  phase := Work.phase
  backlog := Work.backlog
  advances := resume_advances

end Shelf

end Pool

end MemoryBudget
