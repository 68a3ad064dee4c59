import MemoryBudget.Pool.Engine
import MemoryBudget.Proofs.Pool.Refinement
import MemoryBudget.Proofs.Dialogue.Linearisation

/-!
# Pools are executed call by call

The service of a pool implements its engine. Its transactions settle every reply except to a request that finds
nothing. At every moment the buckets list what is resident, and the budget accounts for it.
-/

set_option autoImplicit false

namespace MemoryBudget

namespace Pool

open Service

variable {α σ : Type} [DecidableEq σ] [Hashable σ] [Ord σ] [Recyclable α σ]

theorem owes_discard (settings : Settings) (request : Call α σ) (items : List α)
    (reply : (protocol α σ).Reply request) :
    (service settings).Owes (discard reply items) (discarding items reply) := by
  induction items with
  | nil => exact .replied reply
  | cons item rest ih => exact .reporting (Work.discarding item rest reply) (fun _ _ => rfl) ih

/-- A request is served from the stock, or the client makes the object. -/
theorem begins_lookup (settings : Settings) (care : Care) (requested : σ) (stock : Stock α σ) :
    (service settings).Begins stock (start settings (.lookup care requested) stock)
      (.known (Stock.serve settings care requested)) := by
  have served : (service settings).Owes (start settings (.lookup care requested) stock).1
        (Stock.serve settings care requested stock).1 ∧
      (start settings (.lookup care requested) stock).2 = (Stock.serve settings care requested stock).2 := by
    rw [start, Stock.serve]
    cases stock.take (if care = .exact then .exact else settings.matching) requested with
    | mk found stock' =>
        cases found with
        | some item =>
            exact ⟨owes_discard settings (.lookup care requested) []
              (show α from if care = .dirty then item else Recyclable.wipe item), rfl⟩
        | none =>
            let making : (service (α := α) settings).Work (.lookup care requested) := Work.making care requested
            exact ⟨Owes.asking making (fun item => item) fun _ _ => rfl, rfl⟩
  exact begins_of_known served.1 served.2

theorem accept_owes (settings : Settings) (item : α) (approved : Bool) (stock : Stock α σ) :
    ∃ progress, resume (Work.vetting item : Work (.put item : Call α σ)) approved stock =
        (progress, (Stock.accept item approved stock).2) ∧
      (service settings).Owes progress (Stock.accept item approved stock).1 := by
  cases approved with
  | false => exact ⟨_, rfl, owes_discard settings (.put item) [item] ()⟩
  | true =>
      rw [resume, Stock.accept]
      cases stock.offer item with
      | mk admission stock' =>
          cases admission with
          | refused item' => exact ⟨_, rfl, owes_discard settings (.put item) [item'] ()⟩
          | admitted evicted => exact ⟨_, rfl, owes_discard settings (.put item) evicted ()⟩

/-- An object that the settings do not admit is handed back; else the client is asked whether it may be kept. -/
theorem begins_put (settings : Settings) (item : α) (stock : Stock α σ) :
    (service settings).Begins stock (start settings (.put item) stock)
      (if settings.admits item then .asked (.approve item) (Stock.accept item)
        else .known fun stock => (discarding [item] (), stock)) := by
  rw [start]
  by_cases admitted : settings.admits item = true
  · rw [if_pos admitted, if_pos admitted]
    exact @Begins.asking _ _ (service settings) (.put item) stock (Work.vetting item) (Stock.accept item)
      fun approved stock' => accept_owes settings item approved stock'
  · rw [if_neg admitted, if_neg admitted]
    exact begins_of_known (owes_discard settings (.put item) [item] ()) rfl

theorem service_implements (settings : Settings) :
    (service (α := α) (σ := σ) settings).Implements (engine settings) := by
  intro request stock
  cases request with
  | lookup care requested => exact begins_lookup settings care requested stock
  | put item => exact begins_put settings item stock
  | trimTo target => exact begins_of_known (owes_discard settings (.trimTo target) (stock.trimTo target).1 ()) rfl
  | clear => exact begins_of_known (owes_discard settings .clear stock.clear.1 ()) rfl
  | trim pressure =>
      exact begins_of_known (owes_discard settings (.trim pressure) (stock.trim settings.clearsAt pressure).1 ()) rfl
  | rescale multiplier =>
      have rescaled : (service settings).Owes (start settings (.rescale multiplier) stock).1
            (rescaling multiplier stock).1 ∧
          (start settings (.rescale multiplier) stock).2 = (rescaling multiplier stock).2 := by
        rw [start, rescaling]
        cases stock.rescale multiplier with
        | ok outcome => exact ⟨owes_discard settings (.rescale multiplier) outcome.1 (.ok ()), rfl⟩
        | error invalid => exact ⟨owes_discard settings (.rescale multiplier) [] (.error invalid), rfl⟩
      exact begins_of_known rescaled.1 rescaled.2
  | usage => exact begins_of_known (owes_discard settings .usage [] stock.store.usage) rfl
  | tally => exact begins_of_known (owes_discard settings .tally [] stock.tally) rfl

theorem accept_settles (item : α) (approved : Bool) (stock : Stock α σ) :
    (Stock.accept item approved stock).1.reply = .known () := by
  cases approved with
  | false => rfl
  | true =>
      rw [Stock.accept]
      cases stock.offer item with
      | mk admission stock' => cases admission <;> rfl

/-- Whatever the client does when objects are handed back, the reply is the one that the transaction has settled.
Only a request that finds nothing is left to the client, which makes the object. -/
theorem transaction_settles {settings : Settings} {request : Call α σ}
    {transaction : Transaction (protocol α σ) (Stock α σ) ((protocol α σ).Reply request)}
    (own : ((engine settings).transaction request).MayBe transaction) (stock : Stock α σ) :
    (∃ reply, (transaction stock).1.reply = .known reply) ∨
      ∃ care requested, request = .lookup care requested ∧
        (stock.take (if care = .exact then .exact else settings.matching) requested).1 = none := by
  cases request with
  | lookup care requested =>
      cases own
      rw [Stock.serve]
      cases taken : stock.take (if care = .exact then .exact else settings.matching) requested with
      | mk found stock' =>
          cases found with
          | some item => exact Or.inl ⟨_, rfl⟩
          | none => exact Or.inr ⟨care, requested, rfl, congrArg Prod.fst taken⟩
  | put item =>
      rw [show (engine settings).transaction (.put item) =
        if settings.admits item then .asked (.approve item) (Stock.accept item)
        else .known fun stock => (discarding [item] (), stock) from rfl] at own
      split at own
      · obtain ⟨approved, rfl⟩ := own
        exact Or.inl ⟨(), accept_settles item approved stock⟩
      · cases own
        exact Or.inl ⟨(), rfl⟩
  | rescale multiplier =>
      cases own
      rw [rescaling]
      cases stock.rescale multiplier with
      | ok outcome => exact Or.inl ⟨_, rfl⟩
      | error invalid => exact Or.inl ⟨_, rfl⟩
  | _ =>
      cases own
      exact Or.inl ⟨_, rfl⟩

/-- The budget accounts for the resident objects, no two of them have one key, and the buckets list them all. -/
structure InStep (stock : Stock α σ) : Prop where
  exactUse : stock.store.used.toNat = RecencyList.totalCost stock.store.entries
  withinLimit : stock.store.used ≤ stock.store.limit
  exactCount : stock.store.count = stock.store.entries.length
  distinctKeys : RecencyList.DistinctKeys stock.store.entries
  listed : Lists stock.buckets stock.store.entries
  faithful : ∀ entry ∈ stock.store.entries, Faithful entry

theorem Stock.Coherent.in_step {stock : Stock α σ} (coherent : Stock.Coherent stock) : InStep stock where
  exactUse := coherent.intact.exact_use
  withinLimit := coherent.intact.withinLimit
  exactCount := coherent.intact.exact_count
  distinctKeys := coherent.intact.distinct_keys
  listed := coherent.listed
  faithful := coherent.faithful

variable {φ β : Type} [Std.TransOrd σ] [Std.LawfulEqOrd σ]

theorem in_step_of_leads {settings : Settings} {client : Client (protocol α σ) φ}
    {script : Script (protocol α σ) φ β} {memory : φ} {said : List (Utterance (protocol α σ))}
    {moment : Moment (service settings) φ β}
    (leads : (Moment.opening script memory (Stock.ofLimit settings.limit)).Leads client said moment) :
    InStep moment.state :=
  ((shelving_mirrors settings).stays leads (Stock.of_limit_coherent settings.limit)).in_step

end Pool

end MemoryBudget
