import MemoryBudget.Proofs.Dialogue.Memory
import MemoryBudget.Proofs.Lru.Relief
import MemoryBudget.Proofs.Pool.Transparency

/-!
# Pools under pressure

A pool evicts what its store evicts, takes it out of its buckets and has it freed, one object after the other. A depot
stays with its strategy whatever is asked of it, and only a multiplier changes how much it may use.
-/

set_option autoImplicit false

namespace MemoryBudget

namespace Pool

open Lru (Settles giveWay)

variable {α σ φ : Type} [DecidableEq σ] [Hashable σ] [Ord σ]

abbrev Eviction (α σ : Type) [DecidableEq σ] [Hashable σ] : Type :=
  Lru (Ticket σ) α → List (Entry (Ticket σ) α) × Lru (Ticket σ) α

namespace Stock

def relieve (evict : Eviction α σ) (stock : Stock α σ) : List α × Stock α σ :=
  stock.settle (evict stock.store)

theorem relieve_nothing {evict : Eviction α σ} {stock : Stock α σ} (idle : evict stock.store = ([], stock.store)) :
    stock.relieve evict = ([], stock) := by
  rw [relieve, idle]
  rfl

theorem relieve_again {evict : Eviction α σ} {stock : Stock α σ} (settles : Settles evict stock.store) :
    (stock.relieve evict).2.relieve evict = ([], (stock.relieve evict).2) :=
  relieve_nothing settles.again

variable [Recyclable α σ]

/-- What a call evicts is freed, and that is all that it does. -/
def Relieves (settings : Settings) (evict : Eviction α σ) (request : Call α σ)
    (reply : (protocol α σ).Reply request) : Prop :=
  ∀ stock : Stock α σ, start settings request stock =
    (discard reply (stock.relieve evict).1, (stock.relieve evict).2)

theorem clear_relieves (settings : Settings) : Relieves (α := α) (σ := σ) settings Lru.clear .clear () :=
  fun _ => rfl

theorem trim_relieves (settings : Settings) (pressure : Pressure) :
    Relieves (α := α) (σ := σ) settings (giveWay settings.clearsAt pressure) (.trim pressure) () :=
  fun _ => rfl

/-- The supplier frees one object after the other. -/
theorem perform_of_discards {settings : Settings} {supplier : Supplier α σ} {request : Call α σ}
    {reply : (protocol α σ).Reply request} {items : List α} {stock stock' : Stock α σ} {memory : φ}
    (starts : start settings request stock = (discard reply items, stock')) :
    (service settings).perform supplier.attendant request stock memory = (reply, stock', memory) := by
  let holds : Progress (Work request) ((protocol α σ).Reply request) → Stock α σ → φ → Prop :=
    fun progress state memory' => (∃ items, progress = discard reply items) ∧ state = stock' ∧ memory' = memory
  have kept : holds _ _ _ := Service.perform_keeps (service settings) supplier.attendant holds ?_ stock memory ?_
  · obtain ⟨⟨items, replied⟩, same, same'⟩ := kept
    cases items with
    | nil =>
        cases replied
        exact Prod.ext rfl (Prod.ext same same')
    | cons item rest => cases replied
  · rintro work _ _ ⟨⟨items, waits⟩, rfl, rfl⟩
    cases items with
    | nil => cases waits
    | cons item rest =>
        cases waits
        exact ⟨⟨rest, rfl⟩, rfl, rfl⟩
  · rw [show (service settings).start request stock = _ from starts]
    exact ⟨⟨items, rfl⟩, rfl, rfl⟩

theorem Relieves.performs {settings : Settings} {evict : Eviction α σ} {request : Call α σ}
    {reply : (protocol α σ).Reply request} (relieves : Relieves settings evict request reply)
    (supplier : Supplier α σ) (stock : Stock α σ) (memory : φ) :
    (service settings).perform supplier.attendant request stock memory =
      (reply, (stock.relieve evict).2, memory) :=
  perform_of_discards (relieves stock)

end Stock

namespace Depot

open Stock

def items : Depot α σ → List α
  | .pooled _ stock => stock.items
  | .unpooled => []

def relieve (evict : Eviction α σ) : Depot α σ → Depot α σ
  | .pooled settings stock => .pooled settings (stock.relieve evict).2
  | .unpooled => .unpooled

theorem relieve_nothing {evict : Eviction α σ} (idle : ∀ store, evict store = ([], store)) (depot : Depot α σ) :
    depot.relieve evict = depot := by
  cases depot with
  | unpooled => rfl
  | pooled settings stock =>
      exact congrArg (fun outcome => Depot.pooled settings outcome.2) (Stock.relieve_nothing (idle stock.store))

variable [Recyclable α σ]

/-- A depot that does as the strategy says, with a stock in order if it has one. -/
inductive Obeys : Strategy → Depot α σ → Prop where
  | pooled (settings : Settings) {stock : Stock α σ} (coherent : Coherent stock) :
      Obeys (.pooled settings) (.pooled settings stock)
  | unpooled : Obeys .unpooled .unpooled

theorem obeys_depot (strategy : Strategy) : Obeys strategy (strategy.depot : Depot α σ) := by
  cases strategy with
  | pooled settings => exact .pooled settings (of_limit_coherent settings.limit)
  | unpooled => exact .unpooled

variable [Std.TransOrd σ] [Std.LawfulEqOrd σ] {strategy : Strategy} {depot : Depot α σ}

theorem Obeys.started (obeys : Obeys strategy depot) (request : Call α σ) :
    Obeys strategy (Depot.start request depot).2 := by
  cases obeys with
  | @pooled settings stock coherent =>
      have same := ((pooling_mirrors settings).start request stock trivial).1
      rw [show Depot.start request (.pooled settings stock) = _ from same]
      exact .pooled settings (coherent.start_follows settings request).coherent
  | unpooled => cases request <;> exact .unpooled

theorem Obeys.resumed (obeys : Obeys strategy depot) {request : Call α σ} (work : Work request)
    (answer : (protocol α σ).Answer work.query) : Obeys strategy (Depot.resume work answer depot).2 := by
  cases obeys with
  | @pooled settings stock coherent =>
      have same := ((pooling_mirrors settings).resume work answer stock trivial).1
      rw [show Depot.resume work answer (.pooled settings stock) = _ from same]
      exact .pooled settings (coherent.resume_follows work answer).coherent
  | unpooled => cases work <;> exact .unpooled

theorem Obeys.performed (obeys : Obeys strategy depot) (supplier : Supplier α σ) (request : Call α σ) (memory : φ) :
    Obeys strategy (Depot.service.perform supplier.attendant request depot memory).2.1 :=
  Service.perform_keeps Depot.service supplier.attendant (fun _ depot _ => Obeys strategy depot)
    (fun work _ _ obeys => obeys.resumed work _) depot memory (obeys.started request)

/-! ## The limit -/

omit [DecidableEq σ] [Hashable σ] [Ord σ] [Std.TransOrd σ] [Std.LawfulEqOrd σ] in
theorem offer_limit (shelf : Shelf α) (item : α) : (shelf.offer item).2.limit = shelf.limit := by
  simp only [Shelf.offer]
  split <;> rfl

/-- An answer leaves the limit as it is. -/
theorem Obeys.resumed_limit (obeys : Obeys strategy depot) {request : Call α σ} (work : Work request)
    (answer : (protocol α σ).Answer work.query) :
    (Depot.resume work answer depot).2.usage.limit = depot.usage.limit := by
  cases obeys with
  | unpooled => cases work <;> rfl
  | @pooled settings stock coherent =>
      cases work with
      | making care requested => rfl
      | discarding item rest reply => rfl
      | vetting item =>
          cases answer with
          | false => rfl
          | true =>
              have kept : (@Pool.resume α σ _ _ _ _ (.put item) (.vetting item) true stock).2 =
                  (stock.offer item).2 := by
                rw [Pool.resume]
                cases stock.offer item with
                | mk admission after => cases admission <;> rfl
              have limit : (stock.offer item).2.store.limit = stock.store.limit :=
                (congrArg Shelf.limit (coherent.offer_follows item).state).trans (offer_limit stock.shelf item)
              exact (congrArg (·.store.limit) kept).trans limit

theorem Obeys.put_limit (obeys : Obeys strategy depot) (supplier : Supplier α σ) (item : α) (memory : φ) :
    (Depot.service.perform supplier.attendant (.put item) depot memory).2.1.usage.limit = depot.usage.limit := by
  let request : Call α σ := .put item
  let holds : Progress (Work request) ((protocol α σ).Reply request) → Depot α σ → φ → Prop :=
    fun _ other _ => Obeys strategy other ∧ other.usage.limit = depot.usage.limit
  have kept := Service.perform_keeps Depot.service supplier.attendant holds ?_ depot memory ?_
  · exact kept.2
  · rintro work other _ ⟨obeys, same⟩
    exact ⟨obeys.resumed work _, (obeys.resumed_limit work _).trans same⟩
  · refine ⟨obeys.started request, ?_⟩
    cases obeys with
    | unpooled => rfl
    | @pooled settings stock coherent =>
        show (Pool.start settings (.put item) stock).2.store.limit = stock.store.limit
        rw [Pool.start]
        split <;> rfl

/-! ## Evictions -/

omit [Std.TransOrd σ] [Std.LawfulEqOrd σ] in
theorem perform_relieves {evict : Eviction α σ} {request : Call α σ} {reply : (protocol α σ).Reply request}
    (pooled : ∀ settings stock, depot = .pooled settings stock → Relieves settings evict request reply)
    (unpooled : Depot.start request (.unpooled : Depot α σ) = (.replied reply, .unpooled))
    (supplier : Supplier α σ) (memory : φ) :
    Depot.service.perform supplier.attendant request depot memory = (reply, depot.relieve evict, memory) := by
  cases depot with
  | pooled settings stock =>
      have performed : Depot.service.perform supplier.attendant request (.pooled settings stock) memory = _ :=
        ((pooling_mirrors settings).perform _ request stock memory trivial).1
      have relieves := (pooled settings stock rfl).performs supplier stock memory
      let inDepot (outcome : (protocol α σ).Reply request × Stock α σ × φ) :
          (protocol α σ).Reply request × Depot α σ × φ := (outcome.1, .pooled settings outcome.2.1, outcome.2.2)
      exact performed.trans (congrArg inDepot relieves)
  | unpooled => exact Service.perform_of_replied _ _ _ _ unpooled

omit [Std.TransOrd σ] [Std.LawfulEqOrd σ] in
theorem Obeys.relieve_again (obeys : Obeys strategy depot) {evict : Eviction α σ}
    (settles : ∀ store, Lru.Intact store → Settles evict store) :
    (depot.relieve evict).relieve evict = depot.relieve evict := by
  cases obeys with
  | unpooled => rfl
  | @pooled settings stock coherent =>
      exact congrArg (fun outcome => Depot.pooled settings outcome.2)
        (Stock.relieve_again (settles stock.store coherent.intact))

omit [Std.TransOrd σ] [Std.LawfulEqOrd σ] in
theorem Obeys.relieve_empties (obeys : Obeys strategy depot) {evict : Eviction α σ}
    (settles : ∀ store, Lru.Intact store → Settles evict store)
    (empties : ∀ store, Lru.Intact store → (evict store).2.entries = []) :
    (depot.relieve evict).items = [] ∧ Lru.Vacated depot.usage (depot.relieve evict).usage := by
  cases obeys with
  | unpooled => exact ⟨rfl, rfl⟩
  | @pooled settings stock coherent =>
      have empty := empties stock.store coherent.intact
      exact ⟨List.map_eq_nil_iff.mpr empty, (settles stock.store coherent.intact).vacated empty⟩

omit [Std.TransOrd σ] [Std.LawfulEqOrd σ] in
theorem Obeys.relieve_halves (obeys : Obeys strategy depot) {evict : Eviction α σ}
    (halves : ∀ store, Lru.Intact store → Lru.Halved store.usage (evict store).2.usage) :
    Lru.Halved depot.usage (depot.relieve evict).usage := by
  cases obeys with
  | unpooled => exact ⟨rfl, UInt64.zero_le⟩
  | @pooled settings stock coherent => exact halves stock.store coherent.intact

end Depot

end Pool

end MemoryBudget
