import MemoryBudget.Buffer
import MemoryBudget.Proofs.Pool.Objects
import MemoryBudget.Proofs.Pool.Refinement
import MemoryBudget.Proofs.Pool.Steps

/-!
# Screened pools

An object is screened once, when it is put: the settings must admit it. They never change, so whatever the limit
becomes later, everything in the pool has passed. Nothing is screened a second time, so a limit that is lowered
below what the settings say leaves objects behind that are large beside it.
-/

set_option autoImplicit false

namespace MemoryBudget

namespace Pool

open RecencyList
open Stock (Coherent)

variable {α σ : Type} [Recyclable α σ] {settings : Settings}

/-- A put that waits for the client is about an object that the settings admit. -/
def Work.Screened (settings : Settings) {request : Call α σ} : Work request → Prop
  | .vetting item => settings.admits item = true
  | _ => True

def Settings.Passes (settings : Settings) (items : List α) : Prop :=
  ∀ item ∈ items, settings.admits item = true

theorem Settings.Passes.shed {shelf shelf' : Shelf α} {evicted : List α} (passes : settings.Passes shelf.items)
    (sheds : Shelf.Sheds shelf (evicted, shelf')) : settings.Passes shelf'.items := by
  intro item member
  apply passes
  rw [sheds.parted]
  exact List.mem_append_left _ member

/-- What a call leaves on the shelf passes, and so does what it still has to put there. -/
structure Screens (settings : Settings) {request : Call α σ}
    (outcome : Progress (Work request) ((protocol α σ).Reply request) × Shelf α) : Prop where
  items : settings.Passes outcome.2.items
  work : ∀ work, outcome.1 = .waiting work → work.Screened settings

theorem discard_screens {shelf : Shelf α} (passes : settings.Passes shelf.items) {request : Call α σ}
    (reply : (protocol α σ).Reply request) (items : List α) : Screens settings (discard reply items, shelf) := by
  refine ⟨passes, ?_⟩
  intro work waits
  cases items with
  | nil => cases waits
  | cons item rest =>
      cases waits
      trivial

namespace Shelf

variable {shelf : Shelf α}

theorem Starts.screens [Ord σ] [DecidableEq σ] {request : Call α σ}
    {outcome : Progress (Work request) ((protocol α σ).Reply request) × Shelf α}
    (starts : Starts settings shelf request outcome) (passes : settings.Passes shelf.items) :
    Screens settings outcome := by
  cases starts with
  | recycles care requested parted kept =>
      constructor
      · intro item member
        apply passes
        rw [kept, List.mem_append] at member
        rw [parted, List.mem_append, List.mem_cons]
        exact member.imp_right Or.inr
      · exact fun _ waits => nomatch waits
  | @misses shelf' care requested same =>
      constructor
      · rw [show shelf'.items = shelf.items from same]
        exact passes
      · intro work waits
        cases waits
        trivial
  | vets item admits =>
      refine ⟨passes, ?_⟩
      intro work waits
      cases waits
      exact admits
  | declines item => exact discard_screens passes _ [item]
  | @sheds _ evicted _ _ reply sheds => exact discard_screens (passes.shed sheds) reply evicted

theorem Resumes.screens {request : Call α σ} {work : Work request} {answer : (protocol α σ).Answer work.query}
    {outcome : Progress (Work request) ((protocol α σ).Reply request) × Shelf α}
    (resumes : Resumes shelf work answer outcome) (passes : settings.Passes shelf.items)
    (screened : work.Screened settings) : Screens settings outcome := by
  cases resumes with
  | supplies care requested item => exact ⟨passes, fun _ waits => nomatch waits⟩
  | refuses item approved => exact discard_screens passes _ [item]
  | @admits shelf' evicted kept item parted fresh =>
      apply discard_screens
      rw [show shelf'.items = item :: kept from fresh]
      refine List.forall_mem_cons.mpr ⟨screened, ?_⟩
      intro other member
      apply passes
      rw [parted]
      exact List.mem_append_left _ member
  | discards item rest reply heard => exact discard_screens passes reply rest

end Shelf

section Stocks

variable [DecidableEq σ] [Hashable σ] [Ord σ] [Std.TransOrd σ] [Std.LawfulEqOrd σ] {stock : Stock α σ}

structure Screened (settings : Settings) (stock : Stock α σ) (works : List (service (α := α) (σ := σ) settings).Pending) :
    Prop where
  coherent : Coherent stock
  items : settings.Passes stock.items
  works : ∀ pending ∈ works, Work.Screened settings pending.work

omit [Std.TransOrd σ] [Std.LawfulEqOrd σ] in
/-- A call that has progressed on the stock as it would on the shelf. -/
theorem Screens.screened {request : Call α σ}
    {outcome : Progress (Work request) ((protocol α σ).Reply request) × Stock α σ}
    {meant : Progress (Work request) ((protocol α σ).Reply request) × Shelf α}
    (screens : Screens settings meant) (follows : Stock.Follows outcome meant)
    {works : List (service (α := α) (σ := σ) settings).Pending}
    (others : ∀ pending ∈ works, Work.Screened settings pending.work) :
    Screened settings outcome.2 ((service settings).outstanding outcome.1 ++ works) := by
  obtain ⟨progress, stock⟩ := outcome
  obtain ⟨same, state, coherent⟩ := follows
  refine ⟨coherent, ?_, ?_⟩
  · rw [show stock.items = meant.2.items from congrArg Shelf.items state]
    exact screens.items
  · cases progress with
    | replied reply => exact others
    | waiting work => exact List.forall_mem_cons.mpr ⟨screens.work work same.symm, others⟩

/-- Whatever was done to a pool, its settings admit every object that it keeps. -/
theorem passes_of_reached (reached : (service settings).Reaches (Stock.ofLimit settings.limit) stock) :
    settings.Passes stock.items := by
  obtain ⟨φ, β, client, script, memory, steps, rfl⟩ := reached
  have leads := Moment.leads_advance client steps
    (Moment.opening script memory (Stock.ofLimit settings.limit) : Moment (service settings) φ β)
  refine Screened.items (leads.preserves (fun _ stock works => Screened settings stock works) ?_ ?_ ?_)
  · exact ⟨Stock.of_limit_coherent settings.limit, nofun, nofun⟩
  · intro _ stock works request ⟨coherent, items, others⟩
    have screens := (Shelf.start_meets settings stock.shelf request).screens items
    exact screens.screened (coherent.start_follows settings request) others
  · intro _ stock works request work answer ⟨coherent, items, pending⟩
    obtain ⟨screened, others⟩ := List.forall_mem_cons.mp pending
    have screens := (Shelf.resume_meets stock.shelf work answer).screens items screened
    exact screens.screened (coherent.resume_follows work answer) others

omit [Std.TransOrd σ] [Std.LawfulEqOrd σ] in
/-- No object is larger than the limit. -/
theorem Stock.Coherent.size_le_limit (coherent : Coherent stock) {item : α} (member : item ∈ stock.items) :
    Recyclable.byteSize item ≤ stock.store.limit := by
  obtain ⟨entry, resident, rfl⟩ := List.mem_map.mp member
  obtain ⟨fresher, colder, parted⟩ := List.append_of_mem resident
  have within := coherent.intact.total_cost_le
  rw [parted, total_cost_append, total_cost_cons, (coherent.faithful entry resident).cost] at within
  rw [UInt64.le_iff_toNat_le]
  omega

omit [Ord σ] [Std.TransOrd σ] [Std.LawfulEqOrd σ] in
theorem Stock.Resembles.limit {shelf : Shelf α} (resembles : Resembles stock shelf) : stock.store.limit = shelf.limit :=
  congrArg Usage.limit resembles.usage

end Stocks

/-! ## Buffers -/

/-- No buffer is larger than half of the limit that the pool was made with, nor than the limit of the moment. So it is
larger than half of the limit of the moment only where a multiplier has lowered that. -/
theorem no_buffer_exceeds_half_of_the_configured_limit (limit : UInt64) (stock : Stock Buffer Extent)
    (reached : (service (Buffer.poolSettings limit)).Reaches (Stock.ofLimit limit) stock) :
    ∀ buffer ∈ stock.items,
      Recyclable.byteSize buffer ≤ limit / 2 ∧
      Recyclable.byteSize buffer ≤ stock.store.limit ∧
      (limit ≤ stock.store.limit → Recyclable.byteSize buffer ≤ stock.store.limit / 2) := by
  intro buffer member
  have coherent : Coherent stock := Coherent.of_reached (show (service (Buffer.poolSettings limit)).Reaches
    (Stock.ofLimit (Buffer.poolSettings limit).limit) stock from reached)
  have passes : (Buffer.poolSettings limit).Passes stock.items := passes_of_reached reached
  have half : Recyclable.byteSize buffer ≤ limit / 2 := by
    have admitted := passes buffer member
    simpa [Settings.admits, Buffer.poolSettings] using (Bool.and_eq_true_iff.mp admitted).2
  refine ⟨half, coherent.size_le_limit member, ?_⟩
  intro atLeast
  rw [UInt64.le_iff_toNat_le, UInt64.toNat_div] at *
  exact Nat.le_trans half (Nat.div_le_div_right atLeast)

/-- Sizes are tested at admission only: when the limit is halved afterwards, a buffer of half of the old limit stays and
takes all of the new one. -/
theorem buffer_fills_a_halved_pool :
    let settings := Buffer.poolSettings 100
    let buffer : Buffer := .bytes (Array.replicate 50 0)
    let client : Client (protocol Buffer Extent) Unit
      | .make requested => .done (Buffer.zeroed requested)
      | .approve buffer => .done (Buffer.supplier.approves buffer)
      | .discard _ => .done ()
    let script : Script (protocol Buffer Extent) Unit Unit :=
      .call (.put buffer) fun _ => .call (.rescale Multiplier.half) fun _ => .done ()
    let opening : Moment (service settings) Unit Unit := .opening script () (Stock.ofLimit settings.limit)
    let stock := (opening.advance client 3).2.state
    (service settings).Reaches (Stock.ofLimit settings.limit) stock ∧ stock.items = [buffer] ∧ stock.store.limit = 50 ∧
      ¬ ∀ buffer ∈ stock.items, Recyclable.byteSize buffer ≤ stock.store.limit / 2 := by
  intro settings buffer client script opening stock
  let plain : Moment (Shelf.service settings) Unit Unit := .opening script () (Shelf.ofLimit settings.limit)
  have alike : Stock.Resembles stock (plain.advance client 3).2.state :=
    ((service_behaves_as_shelf settings script ()).1 client 3).2.2.1
  have shelved : (plain.advance client 3).2.state.items = [buffer] ∧ (plain.advance client 3).2.state.limit = 50 := by
    decide +kernel
  have items : stock.items = [buffer] := alike.items.trans shelved.1
  have limit : stock.store.limit = 50 := alike.limit.trans shelved.2
  refine ⟨⟨Unit, Unit, client, script, (), 3, rfl⟩, items, limit, ?_⟩
  rw [items, limit, List.forall_mem_singleton]
  decide

/-- A buffer of fifty-two bytes is refused from the beginning, and one of fifty-one also after the limit is doubled. -/
theorem buffer_of_fifty_is_the_largest :
    let settings := Buffer.poolSettings 100
    let buffer : Buffer := .bytes (Array.replicate 50 0)
    let client : Client (protocol Buffer Extent) Unit
      | .make requested => .done (Buffer.zeroed requested)
      | .approve buffer => .done (Buffer.supplier.approves buffer)
      | .discard _ => .done ()
    let script : Script (protocol Buffer Extent) Unit Unit :=
      .call (.put buffer) fun _ => .call (.put (.ints (Array.replicate 13 0))) fun _ =>
      .call (.rescale ⟨0x40000000⟩) fun _ => .call (.put (.bytes (Array.replicate 51 0))) fun _ => .done ()
    let opening : Moment (service settings) Unit Unit := .opening script () (Stock.ofLimit settings.limit)
    let stock := (opening.advance client 7).2.state
    stock.items = [buffer] ∧ stock.store.limit = 200 ∧ Recyclable.byteSize buffer ≤ (100 : UInt64) / 2 ∧
      Recyclable.byteSize buffer ≤ stock.store.limit ∧ Recyclable.byteSize buffer ≤ stock.store.limit / 2 := by
  intro settings buffer client script opening stock
  let plain : Moment (Shelf.service settings) Unit Unit := .opening script () (Shelf.ofLimit settings.limit)
  have alike : Stock.Resembles stock (plain.advance client 7).2.state :=
    ((service_behaves_as_shelf settings script ()).1 client 7).2.2.1
  have shelved : (plain.advance client 7).2.state.items = [buffer] ∧ (plain.advance client 7).2.state.limit = 200 := by
    decide +kernel
  have items : stock.items = [buffer] := alike.items.trans shelved.1
  have limit : stock.store.limit = 200 := alike.limit.trans shelved.2
  have resident : buffer ∈ stock.items := by
    rw [items]
    exact List.mem_singleton_self buffer
  obtain ⟨half, within, restored⟩ := no_buffer_exceeds_half_of_the_configured_limit 100 stock
    ⟨Unit, Unit, client, script, (), 7, rfl⟩ buffer resident
  refine ⟨items, limit, half, within, restored ?_⟩
  rw [limit]
  decide

end Pool

end MemoryBudget
