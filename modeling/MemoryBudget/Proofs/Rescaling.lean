import MemoryBudget.Proofs.Cache.Putting
import MemoryBudget.Proofs.Lru.Rescaling
import MemoryBudget.Proofs.Suite.Relief

/-!
# Rescaling

Stores, caches, caches of shared values and pools are rescaled in the same way: all at once and from the base that they
were made with, whatever was done to them before, or not at all and without a word to anybody. A suite rescales its cache
and its bitmap pool together.
-/

set_option autoImplicit false

namespace MemoryBudget

open Lru (Based Rescaled)

/-! ## Caches -/

namespace Cache

variable {κ α : Type} [BEq κ] [Hashable κ] [EquivBEq κ] [LawfulHashable κ] {base : UInt64} {store : Lru κ α}

theorem start_based (based : Based base store) (request : Call κ α) : Based base (start request store).2 := by
  cases request with
  | get key => exact based.get key
  | remove key => exact based.removed key
  | trimTo target => exact based.trimmedTo target
  | clear => exact based.cleared
  | trim pressure => exact based.trimmed pressure
  | rescale multiplier =>
      rw [start]
      cases done : store.rescale multiplier with
      | error invalid => exact based
      | ok outcome => exact based.rescaled done
  | _ => exact based

theorem resume_based [BEq α] (based : Based base store) {request : Call κ α} (work : Work request)
    (answer : (protocol κ α).Answer work.query) : Based base (resume work answer store).2 := by
  cases work with
  | pricing key value =>
      have inserted := based.inserted ⟨key, value, answer⟩
      rw [← Lru.exchange_store] at inserted
      exact inserted
  | telling departure rest reply => exact based

theorem based_of_reached [BEq α] {limit : UInt64}
    (reached : (service (κ := κ) (α := α)).Reaches (Lru.ofLimit limit) store) : Based limit store :=
  reached.preserves (Based limit) (Lru.of_limit_based limit)
    (fun request _ based => start_based based request) (fun work answer _ based => resume_based based work answer)

omit [EquivBEq κ] [LawfulHashable κ] in
theorem start_rescale_of_refused {multiplier : Multiplier} (refused : multiplier.Refused) (store : Lru κ α) :
    start (.rescale multiplier) store = (.replied (.error ⟨multiplier⟩), store) := by
  rw [start, Lru.rescale_of_refused refused]

theorem start_rescale (based : Based base store) {multiplier : Multiplier} (fine : ¬ multiplier.Refused) :
    ∃ evicted final, Rescaled base multiplier store evicted final ∧
      start (.rescale multiplier) store = (@tell κ α (.rescale multiplier) (.ok ()) (evictions evicted), final) := by
  obtain ⟨evicted, final, done, rescaled⟩ := based.rescales fine
  refine ⟨evicted, final, rescaled, ?_⟩
  rw [start, done]

end Cache

/-! ## Caches of shared values -/

namespace Shared

variable {κ ν ℓ : Type} [BEq κ] [Hashable κ] [EquivBEq κ] [LawfulHashable κ] {base : UInt64} {state : State κ ν ℓ}

omit [EquivBEq κ] [LawfulHashable κ] in
theorem Handled.based {state' : State κ ν ℓ} (handled : Handled state state') (based : Based base state.store) :
    Based base state'.store := by
  rw [handled.store]
  exact based

omit [EquivBEq κ] [LawfulHashable κ] in
theorem Reports.based {request : Call κ ν ℓ} {returning : Option Handle} {queue : List Handle}
    {outcome : Progress (Work request) ((protocol κ ν ℓ).Reply request) × State κ ν ℓ}
    (reports : Reports state returning queue outcome) (based : Based base state.store) :
    Based base outcome.2.store := by
  rw [reports.store]
  exact based

theorem start_based (based : Based base state.store) (request : Call κ ν ℓ) :
    Based base (start request state).2.store := by
  cases request with
  | copy name size => exact (copy_handled state name size).based based
  | take name => exact (take_handled state name).based based
  | name name => exact (name_handled state name).based based
  | putAside => exact (put_aside_handled state).based based
  | drop => exact (drop_handled state).based based
  | dropAside => exact (drop_aside_handled state).based based
  | reclaim => exact (reclaim_handled state).based based
  | put key =>
      cases letGo : state.custody.letGo? with
      | none =>
          rw [start, letGo]
          exact based
      | some taken =>
          have inserted := based.inserted ⟨key, taken.1, taken.1.size⟩
          rw [← Lru.exchange_store] at inserted
          rw [start_put letGo]
          apply (report_reports _ _ _ _).based
          rw [State.exchange]
          dsimp only
          rw [collect_store]
          exact inserted
  | get key =>
      have got := based.get key
      rw [start, State.fetch]
      generalize state.store.get key = outcome at got
      obtain ⟨found, store⟩ := outcome
      cases found <;> exact got
  | remove key =>
      have removed := based.removed key
      rw [start, State.withdraw]
      generalize state.store.remove key = outcome at removed
      obtain ⟨found, store⟩ := outcome
      cases found <;> exact removed
  | clear => exact (report_reports _ _ _ _).based based.cleared
  | trim pressure => exact (report_reports _ _ _ _).based (based.trimmed pressure)
  | rescale multiplier =>
      rw [start]
      cases done : state.store.rescale multiplier with
      | error invalid => exact based
      | ok outcome => exact (report_reports _ _ _ _).based (based.rescaled done)
  | _ => exact based

omit [EquivBEq κ] [LawfulHashable κ] in
theorem resume_based (based : Based base state.store) {request : Call κ ν ℓ} (work : Work request) :
    Based base (resume work () state).2.store :=
  (resume_reports work state).based based

theorem based_of_reached {limit : UInt64}
    (reached : (service (κ := κ) (ν := ν) (ℓ := ℓ)).Reaches (State.ofLimit limit) state) : Based limit state.store :=
  reached.preserves (fun state => Based limit state.store) (Lru.of_limit_based limit)
    (fun request _ based => start_based based request) (fun work _ _ based => resume_based based work)

/-- The reply that a call has, or will have in the end. -/
def Replies {request : Call κ ν ℓ} (reply : (protocol κ ν ℓ).Reply request) :
    Progress (Work request) ((protocol κ ν ℓ).Reply request) → Prop
  | .replied given => given = reply
  | .waiting work => work.reply = reply

omit [EquivBEq κ] [LawfulHashable κ] in
theorem report_replies {request : Call κ ν ℓ} (reply : (protocol κ ν ℓ).Reply request) (returning : Option Handle)
    (queue : List Handle) (state : State κ ν ℓ) : Replies reply (report reply returning queue state).1 := by
  induction queue generalizing state with
  | nil => rfl
  | cons handle pending ih =>
      rw [report]
      split
      · exact ih (state.countDrop handle)
      · rfl

omit [EquivBEq κ] [LawfulHashable κ] in
theorem start_rescale_of_refused {multiplier : Multiplier} (refused : multiplier.Refused) (state : State κ ν ℓ) :
    start (.rescale multiplier) state = (.replied (.error ⟨multiplier⟩), state) := by
  rw [start, Lru.rescale_of_refused refused]

theorem start_rescale (based : Based base state.store) {multiplier : Multiplier} (fine : ¬ multiplier.Refused) :
    ∃ evicted final, Rescaled base multiplier state.store evicted final ∧
      start (.rescale multiplier) state =
        @report κ ν ℓ _ _ (.rescale multiplier) (.ok ()) none (values evicted) { state with store := final } := by
  obtain ⟨evicted, final, done, rescaled⟩ := based.rescales fine
  refine ⟨evicted, final, rescaled, ?_⟩
  rw [start, done]

end Shared

/-! ## Pools -/

namespace Pool

open Stock (Coherent)

variable {α σ : Type} [DecidableEq σ] [Hashable σ] [Ord σ] [Recyclable α σ]

namespace Shelf

omit [Hashable σ] in
theorem take_base (shelf : Shelf α) (matching : Matching) (requested : σ) :
    (shelf.take matching requested).2.base = shelf.base := by
  rw [take]
  split <;> rfl

omit [Hashable σ] in
theorem start_base (settings : Settings) (shelf : Shelf α) (request : Call α σ) :
    (start settings request shelf).2.base = shelf.base := by
  cases request with
  | lookup care requested =>
      rw [start_lookup]
      exact shelf.take_base _ _
  | put item =>
      rw [start]
      split <;> rfl
  | trim pressure =>
      show (shelf.trim settings.clearsAt pressure).2.base = shelf.base
      rw [trim]
      split
      · rfl
      · cases pressure.retention <;> rfl
  | rescale multiplier =>
      rw [start]
      cases valid : multiplier.validate with
      | error invalid => rw [rescale_of_invalid valid]
      | ok _ =>
          rw [rescale_of_valid valid]
          rfl
  | _ => rfl

omit [DecidableEq σ] [Hashable σ] [Ord σ] in
theorem resume_base (shelf : Shelf α) {request : Call α σ} (work : Work request)
    (answer : (protocol α σ).Answer work.query) : (resume work answer shelf).2.base = shelf.base := by
  cases work with
  | making care requested => rfl
  | discarding item rest reply => rfl
  | vetting item =>
      cases answer with
      | false => rfl
      | true =>
          rcases shelf.offer_cases item with refused | ⟨evicted, kept, shelf', admitted, _⟩
          · rw [resume, refused]
          · have offered : (shelf.offer item).2.base = shelf.base := by
              rw [offer]
              split <;> rfl
            rw [admitted] at offered
            rw [resume, admitted]
            exact offered

end Shelf

namespace Stock

variable [Std.TransOrd σ] [Std.LawfulEqOrd σ] {stock : Stock α σ}

theorem Coherent.start_based (coherent : Coherent stock) (settings : Settings) (request : Call α σ) :
    (start settings request stock).2.store.budget.base = stock.store.budget.base :=
  (congrArg Shelf.base (coherent.start_follows settings request).state).trans
    (Shelf.start_base settings stock.shelf request)

theorem Coherent.resume_based (coherent : Coherent stock) {request : Call α σ} (work : Work request)
    (answer : (protocol α σ).Answer work.query) :
    (resume work answer stock).2.store.budget.base = stock.store.budget.base :=
  (congrArg Shelf.base (coherent.resume_follows work answer).state).trans
    (Shelf.resume_base stock.shelf work answer)

/-- The stock is in order, and multipliers apply to this base. -/
structure Based (base : UInt64) (stock : Stock α σ) : Prop where
  coherent : Coherent stock
  base : stock.store.budget.base = base

theorem based_of_reached {settings : Settings}
    (reached : (service settings).Reaches (Stock.ofLimit settings.limit) stock) : Based settings.limit stock := by
  apply reached.preserves (Based settings.limit)
  · exact ⟨of_limit_coherent settings.limit, rfl⟩
  · intro request stock based
    exact ⟨(based.coherent.start_follows settings request).coherent,
      (based.coherent.start_based settings request).trans based.base⟩
  · intro request work answer stock based
    exact ⟨(based.coherent.resume_follows work answer).coherent,
      (based.coherent.resume_based work answer).trans based.base⟩

/-- What becomes of a stock whose store is rescaled: the buckets list what is left, and what has left is counted. -/
structure Rescaled (base : UInt64) (multiplier : Multiplier) (stock : Stock α σ)
    (evicted : List (Entry (Ticket σ) α)) (final : Stock α σ) : Prop where
  store : Lru.Rescaled base multiplier stock.store evicted final.store
  coherent : Coherent final
  numbers : final.nextSerial = stock.nextSerial
  tally : final.tally = { stock.tally with evictions := stock.tally.evictions + evicted.length }

omit [Std.TransOrd σ] [Std.LawfulEqOrd σ] in
theorem start_rescale_of_refused {multiplier : Multiplier} (refused : multiplier.Refused) (settings : Settings)
    (stock : Stock α σ) : start settings (.rescale multiplier) stock = (.replied (.error ⟨multiplier⟩), stock) := by
  rw [start, rescale, Lru.rescale_of_refused refused]
  rfl

theorem start_rescale {base : UInt64} (based : Based base stock) {multiplier : Multiplier} (fine : ¬ multiplier.Refused)
    (settings : Settings) :
    ∃ evicted final, Rescaled base multiplier stock evicted final ∧
      start settings (.rescale multiplier) stock =
        (@discard α σ (.rescale multiplier) (.ok ()) (evicted.map (·.value)), final) := by
  have inOrder : Lru.Based base stock.store := ⟨based.coherent.intact, based.base⟩
  obtain ⟨evicted, final, done, rescaled⟩ := inOrder.rescales fine
  have settled : stock.rescale multiplier = .ok (stock.settle (evicted, final)) := by
    rw [rescale, done]
    rfl
  have started : start settings (.rescale multiplier) stock =
      (@discard α σ (.rescale multiplier) (.ok ()) (evicted.map (·.value)), (stock.settle (evicted, final)).2) := by
    rw [start, settled]
    rfl
  have coherent := (based.coherent.start_follows settings (.rescale multiplier)).coherent
  rw [started] at coherent
  exact ⟨evicted, (stock.settle (evicted, final)).2, ⟨rescaled, coherent, rfl, rfl⟩, started⟩

end Stock

namespace Depot

def base : Depot α σ → UInt64
  | .pooled _ stock => stock.store.budget.base
  | .unpooled => 0

variable [Std.TransOrd σ] [Std.LawfulEqOrd σ] {strategy : Strategy} {depot : Depot α σ}

theorem Obeys.started_base (obeys : Obeys strategy depot) (request : Call α σ) :
    (Depot.start request depot).2.base = depot.base := by
  cases obeys with
  | @pooled settings stock coherent =>
      have same := ((pooling_mirrors settings).start request stock trivial).1
      rw [show Depot.start request (.pooled settings stock) = _ from same]
      exact coherent.start_based settings request
  | unpooled => cases request <;> rfl

theorem Obeys.resumed_base (obeys : Obeys strategy depot) {request : Call α σ} (work : Work request)
    (answer : (protocol α σ).Answer work.query) : (Depot.resume work answer depot).2.base = depot.base := by
  cases obeys with
  | @pooled settings stock coherent =>
      have same := ((pooling_mirrors settings).resume work answer stock trivial).1
      rw [show Depot.resume work answer (.pooled settings stock) = _ from same]
      exact coherent.resume_based work answer
  | unpooled => cases work <;> rfl

theorem Obeys.performed_base (obeys : Obeys strategy depot) {φ : Type} (supplier : Supplier α σ) (request : Call α σ)
    (memory : φ) : (Depot.service.perform supplier.attendant request depot memory).2.1.base = depot.base := by
  have kept := Service.perform_keeps Depot.service supplier.attendant
    (fun (_ : Progress (Work request) _) other (_ : φ) => Obeys strategy other ∧ other.base = depot.base)
    (fun work _ _ ⟨obeys, same⟩ => ⟨obeys.resumed work _, (obeys.resumed_base work _).trans same⟩) depot memory
    ⟨obeys.started request, obeys.started_base request⟩
  exact kept.2

end Depot

end Pool

/-! ## Suites -/

namespace Suite

open Shared
open Pool (Depot)
open Pool.Depot (Obeys)

variable {κ : Type} [BEq κ] [Hashable κ] {settings : Settings} {suite : Suite κ}

structure Sized (settings : Settings) (results : State κ Bitmap Listener) (bitmaps : Depot Bitmap Frame) : Prop where
  cache : Based settings.resultLimit results.store
  obeys : Obeys settings.bitmapStrategy bitmaps
  base : bitmaps.base = (settings.bitmapStrategy.depot : Depot Bitmap Frame).base

theorem of_settings_sized (settings : Settings) :
    Sized settings (Suite.ofSettings settings : Suite κ).results
      (Suite.ofSettings settings : Suite κ).surroundings.bitmaps where
  cache := Lru.of_limit_based settings.resultLimit
  obeys := Depot.obeys_depot settings.bitmapStrategy
  base := rfl

variable {results : State κ Bitmap Listener} {bitmaps : Depot Bitmap Frame}

theorem Sized.called (sized : Sized settings results bitmaps) (request : Pool.Call Bitmap Frame) :
    Sized settings results
      (Depot.service.perform BitmapSource.unrestricted.supplier.attendant request bitmaps ()).2.1 where
  cache := sized.cache
  obeys := sized.obeys.performed _ request ()
  base := (sized.obeys.performed_base _ request ()).trans sized.base

/-- Whatever a listener does with a handle, the store of the cache is as it was. -/
theorem answered_store (query : Query Listener) (results : State κ Bitmap Listener) (surroundings : Surroundings) :
    (attendant.answer query results surroundings).2.1.store = results.store := by
  obtain ⟨listener, handle⟩ := query
  cases listener with
  | recorder => exact (drop_handled results).store
  | recycler => exact (reclaim_handled results).store

theorem Sized.answered (surroundings : Surroundings) (sized : Sized settings results surroundings.bitmaps)
    (query : Query Listener) :
    let given := attendant.answer query results surroundings
    Sized settings given.2.1 given.2.2.bitmaps := by
  let holds : Depot Bitmap Frame → Prop := fun depot =>
    Obeys settings.bitmapStrategy depot ∧ depot.base = (settings.bitmapStrategy.depot : Depot Bitmap Frame).base
  have bitmaps : holds (attendant.answer query results surroundings).2.2.bitmaps := by
    refine answer_keeps (fun depot bitmap held => ?_) query results surroundings ⟨sized.obeys, sized.base⟩
    exact ⟨held.1.performed _ (.put bitmap) (), (held.1.performed_base _ (.put bitmap) ()).trans held.2⟩
  refine ⟨?_, bitmaps.1, bitmaps.2⟩
  rw [answered_store]
  exact sized.cache

variable [EquivBEq κ] [LawfulHashable κ]

theorem Sized.performed (surroundings : Surroundings) (sized : Sized settings results surroundings.bitmaps)
    (request : Shared.Call κ Bitmap Listener) :
    let after := Shared.service.perform attendant request results surroundings
    Sized settings after.2.1 after.2.2.bitmaps := by
  have started : Sized settings (Shared.start request results).2 surroundings.bitmaps :=
    ⟨Shared.start_based sized.cache request, sized.obeys, sized.base⟩
  refine Service.perform_keeps Shared.service attendant
    (fun _ state surroundings => Sized settings state surroundings.bitmaps) ?_ results surroundings started
  intro work state surroundings before
  have given := before.answered surroundings (Work.query work)
  exact ⟨Shared.resume_based given.cache work, given.obeys, given.base⟩

theorem sized_kept (settings : Settings) :
    Kept (κ := κ) fun suite => Sized settings suite.results suite.surroundings.bitmaps where
  results {suite} sized request := sized.performed suite.surroundings request
  bitmaps sized request := sized.called request
  buffers sized _ := sized
  allowance sized _ := sized
  page sized := sized

/-! ## Allowances -/

theorem not_refused (allowance : Allowance) : ¬ allowance.multiplier.Refused := by
  cases allowance <;> decide

omit [EquivBEq κ] [LawfulHashable κ] in
/-- Whoever listens, a call that has something to report ends with its reply. -/
theorem reply_of_report {request : Shared.Call κ Bitmap Listener}
    {reply : (Shared.protocol κ Bitmap Listener).Reply request} {queue : List Handle}
    {after : State κ Bitmap Listener} (started : Shared.start request suite.results = report reply none queue after) :
    (suite.callResults request).1 = reply := by
  refine Service.perform_keeps Shared.service attendant (fun progress _ _ => Replies reply progress) ?_ suite.results
    suite.surroundings ?_
  · intro work state surroundings promised
    rw [← show work.reply = reply from promised]
    exact report_replies _ _ _ _
  · rw [show Shared.service.start request suite.results = _ from started]
    exact report_replies _ _ _ _

/-- The cache takes the multiplier of an allowance. -/
theorem Sized.rescales_results (sized : Sized settings suite.results suite.surroundings.bitmaps)
    (allowance : Allowance) :
    (suite.callResults (.rescale allowance.multiplier)).1 = .ok () ∧
      ∃ evicted, Rescaled settings.resultLimit allowance.multiplier suite.results.store evicted
        (suite.callResults (.rescale allowance.multiplier)).2.results.store := by
  obtain ⟨evicted, final, rescaled, started⟩ := Shared.start_rescale sized.cache (not_refused allowance)
  refine ⟨reply_of_report started, evicted, ?_⟩
  rw [store_of_report started]
  exact rescaled

def Settings.scaledBitmapLimit (settings : Settings) (multiplier : Multiplier) : UInt64 :=
  if settings.poolsBitmaps && 0 < settings.bitmapLimit then scaleSize settings.bitmapLimit multiplier else 0

omit [EquivBEq κ] [LawfulHashable κ] in
/-- So does the bitmap pool, whatever was put into it on the way. -/
theorem Sized.rescales_bitmaps (sized : Sized settings results bitmaps) {multiplier : Multiplier}
    (fine : ¬ multiplier.Refused) :
    let after := Depot.service.perform BitmapSource.unrestricted.supplier.attendant (.rescale multiplier) bitmaps ()
    after.1 = .ok () ∧ after.2.1.usage.limit = settings.scaledBitmapLimit multiplier ∧
      after.2.1.usage.used ≤ after.2.1.usage.limit := by
  obtain ⟨_, obeys, base⟩ := sized
  rw [Settings.scaledBitmapLimit]
  rw [Settings.bitmapStrategy] at obeys base
  by_cases pooling : (settings.poolsBitmaps && decide (0 < settings.bitmapLimit)) = true
  · rw [if_pos pooling] at obeys base ⊢
    cases obeys with
    | @pooled _ stock coherent =>
        have based : Pool.Stock.Based settings.bitmapLimit stock := ⟨coherent, base⟩
        obtain ⟨evicted, final, ⟨rescaled, _⟩, started⟩ :=
          Pool.Stock.start_rescale based fine (Bitmap.poolSettings settings.bitmapLimit)
        have performed : Depot.service.perform BitmapSource.unrestricted.supplier.attendant (.rescale multiplier)
            (.pooled (Bitmap.poolSettings settings.bitmapLimit) stock) () =
              (.ok (), .pooled (Bitmap.poolSettings settings.bitmapLimit) final, ()) := by
          rw [Pool.depot_perform, Pool.Stock.perform_of_discards started]
        rw [performed]
        exact ⟨rfl, rescaled.limit, rescaled.within⟩
  · rw [if_neg pooling] at obeys ⊢
    cases obeys
    have started : Depot.service.start (.rescale multiplier) (.unpooled : Depot Bitmap Frame) =
        (.replied (.ok ()), .unpooled) := by
      show (Progress.replied multiplier.validate, Depot.unpooled) = _
      rw [Multiplier.validate_of_not_refused fine]
      rfl
    have performed := Service.perform_of_replied Depot.service BitmapSource.unrestricted.supplier.attendant
      (.unpooled : Depot Bitmap Frame) () started
    rw [performed]
    exact ⟨rfl, rfl, UInt64.zero_le⟩

omit [EquivBEq κ] [LawfulHashable κ] in
theorem allow_of_ok {allowance : Allowance} (cached : (suite.callResults (.rescale allowance.multiplier)).1 = .ok ())
    (pooled : ((suite.callResults (.rescale allowance.multiplier)).2.callBitmaps
      (.rescale allowance.multiplier)).1 = .ok ()) :
    suite.allow allowance = (.ok suite.allowance,
      { ((suite.callResults (.rescale allowance.multiplier)).2.callBitmaps (.rescale allowance.multiplier)).2 with
        allowance := allowance }) := by
  have same : ((suite.callResults (.rescale allowance.multiplier)).2.callBitmaps
      (.rescale allowance.multiplier)).2.allowance = suite.allowance := rfl
  rw [allow, ← same]
  generalize suite.callResults (.rescale allowance.multiplier) = outcome at cached pooled
  obtain ⟨reply, between⟩ := outcome
  cases cached
  dsimp only at pooled ⊢
  generalize between.callBitmaps (.rescale allowance.multiplier) = answer at pooled
  obtain ⟨reply, last⟩ := answer
  cases pooled
  rfl

structure Allowed (settings : Settings) (before : Suite κ) (allowance : Allowance) : Prop where
  /-- It always succeeds, and tells the allowance until then. -/
  reply : (before.allow allowance).1 = .ok before.allowance
  remembered : (before.allow allowance).2.allowance = allowance
  results : ∃ evicted, Rescaled settings.resultLimit allowance.multiplier before.results.store evicted
    (before.allow allowance).2.results.store
  bitmapLimit : (before.allow allowance).2.surroundings.bitmaps.usage.limit =
    settings.scaledBitmapLimit allowance.multiplier
  bitmapUse : (before.allow allowance).2.surroundings.bitmaps.usage.used ≤
    settings.scaledBitmapLimit allowance.multiplier
  buffers : (before.allow allowance).2.buffers = before.buffers

theorem Sized.allowed (sized : Sized settings suite.results suite.surroundings.bitmaps) (allowance : Allowance) :
    Allowed settings suite allowance := by
  obtain ⟨cached, rescaled⟩ := sized.rescales_results allowance
  have between := sized.performed suite.surroundings (.rescale allowance.multiplier)
  obtain ⟨pooled, limit, used⟩ := between.rescales_bitmaps (not_refused allowance)
  rw [limit] at used
  have outcome := allow_of_ok cached pooled
  constructor
  · rw [outcome]
  · rw [outcome]
  · rw [outcome]
    exact rescaled
  · rw [outcome]
    exact limit
  · rw [outcome]
    exact used
  · rw [outcome]
    rfl

end Suite

/-! ## The result -/

/-- A store is rescaled from this base, or not at all. -/
def Lru.Rescales {κ α : Type} [BEq κ] [Hashable κ] (base : UInt64) (store : Lru κ α) : Prop :=
  ∀ multiplier : Multiplier,
    (multiplier.Refused → store.perform (.rescale multiplier) = (.rescaled (.error ⟨multiplier⟩), store)) ∧
    (¬ multiplier.Refused → ∃ evicted final, Rescaled base multiplier store evicted final ∧
      store.perform (.rescale multiplier) = (.rescaled (.ok evicted), final))

/-- A cache tells its client about what is evicted, and otherwise replies at once. -/
def Cache.Rescales {κ α : Type} [BEq κ] [Hashable κ] (base : UInt64) (store : Lru κ α) : Prop :=
  ∀ multiplier : Multiplier,
    (multiplier.Refused → Cache.start (.rescale multiplier) store = (.replied (.error ⟨multiplier⟩), store)) ∧
    (¬ multiplier.Refused → ∃ evicted final, Rescaled base multiplier store evicted final ∧
      Cache.start (.rescale multiplier) store =
        (@Cache.tell κ α (.rescale multiplier) (.ok ()) (Cache.evictions evicted), final))

/-- Handles that leave are reported, and otherwise not even a count changes. -/
def Shared.Rescales {κ ν ℓ : Type} [BEq κ] [Hashable κ] (base : UInt64) (state : Shared.State κ ν ℓ) : Prop :=
  ∀ multiplier : Multiplier,
    (multiplier.Refused → Shared.start (.rescale multiplier) state = (.replied (.error ⟨multiplier⟩), state)) ∧
    (¬ multiplier.Refused → ∃ evicted final, Rescaled base multiplier state.store evicted final ∧
      Shared.start (.rescale multiplier) state =
        @Shared.report κ ν ℓ _ _ (.rescale multiplier) (.ok ()) none (Shared.values evicted)
          { state with store := final })

/-- Objects that leave are discarded, and otherwise neither the buckets nor the counts change. -/
def Pool.Rescales {α σ : Type} [DecidableEq σ] [Hashable σ] [Ord σ] [Recyclable α σ] (settings : Pool.Settings)
    (stock : Pool.Stock α σ) : Prop :=
  ∀ multiplier : Multiplier,
    (multiplier.Refused →
      Pool.start settings (.rescale multiplier) stock = (.replied (.error ⟨multiplier⟩), stock)) ∧
    (¬ multiplier.Refused → ∃ evicted final, Pool.Stock.Rescaled settings.limit multiplier stock evicted final ∧
      Pool.start settings (.rescale multiplier) stock =
        (@Pool.discard α σ (.rescale multiplier) (.ok ()) (evicted.map (·.value)), final))

section Result

variable {κ α ν ℓ β σ : Type} [BEq κ] [Hashable κ] [EquivBEq κ] [LawfulHashable κ] [BEq α] [DecidableEq σ] [Hashable σ]
  [Ord σ] [Std.TransOrd σ] [Std.LawfulEqOrd σ] [Recyclable β σ]

/-- The multipliers that are not refused are the positive ones, infinity and the two zeros. Whatever was done to a store,
a cache, a cache of shared values or a pool before, a refused multiplier changes nothing and nobody is asked or told
anything. Any other one sets the limit that it gives with the base, and as few of the coldest entries leave as may. An
allowance rescales both the cache and the bitmap pool of a suite, also after either was rescaled by itself. -/
theorem rescaling_is_all_or_nothing :
    (∀ multiplier : Multiplier, ¬ multiplier.Refused ↔
      multiplier.bits.toNat ≤ 0x7f800000 ∨ multiplier.bits.toNat = 0x80000000) ∧
    (∀ limit operations, Lru.Rescales limit ((Lru.ofLimit limit : Lru κ α).run operations).2) ∧
    (∀ limit store, (Cache.service (κ := κ) (α := α)).Reaches (Lru.ofLimit limit) store →
      Cache.Rescales limit store) ∧
    (∀ limit state, (Shared.service (κ := κ) (ν := ν) (ℓ := ℓ)).Reaches (Shared.State.ofLimit limit) state →
      Shared.Rescales limit state) ∧
    (∀ settings (stock : Pool.Stock β σ), (Pool.service settings).Reaches (Pool.Stock.ofLimit settings.limit) stock →
      Pool.Rescales settings stock) ∧
    (∀ settings (operations : List (Suite.Operation κ)), (∀ operation ∈ operations, operation.ReadOnly) →
      ∀ allowance, Suite.Allowed settings ((Suite.ofSettings settings : Suite κ).history operations).2 allowance) := by
  refine ⟨?_, ?_, ?_, ?_, ?_, ?_⟩
  · intro multiplier
    have bound := multiplier.bits.toNat_lt
    rw [Multiplier.Refused, Multiplier.BelowZero, Multiplier.Undefined]
    omega
  · intro limit operations multiplier
    have based := (Lru.of_limit_based (κ := κ) (α := α) limit).run operations
    constructor
    · intro refused
      rw [Lru.perform, Lru.rescale_of_refused refused]
    · intro fine
      obtain ⟨evicted, final, done, rescaled⟩ := based.rescales fine
      refine ⟨evicted, final, rescaled, ?_⟩
      rw [Lru.perform, done]
  · intro limit store reached multiplier
    exact ⟨fun refused => Cache.start_rescale_of_refused refused store, Cache.start_rescale (Cache.based_of_reached reached)⟩
  · intro limit state reached multiplier
    exact ⟨fun refused => Shared.start_rescale_of_refused refused state,
      Shared.start_rescale (Shared.based_of_reached reached)⟩
  · intro settings stock reached multiplier
    exact ⟨fun refused => Pool.Stock.start_rescale_of_refused refused settings stock,
      fun fine => Pool.Stock.start_rescale (Pool.Stock.based_of_reached reached) fine settings⟩
  · intro settings operations readOnly allowance
    have sized := (Suite.sized_kept settings).history operations readOnly (Suite.of_settings_sized settings)
    exact sized.allowed allowance

end Result

/-- Neither a limit that was halved nor a multiplier that was refused leaves a trace in what the next multiplier does. -/
theorem limit_restored_after_halving :
    let halving : List (Lru.Operation Nat Nat) := [.insert ⟨1, 5, 8⟩, .insert ⟨2, 6, 8⟩, .rescale Multiplier.half]
    let halved := ((Lru.ofLimit 20).run halving).2
    let minusOne : Multiplier := ⟨0xbf800000⟩
    let script : Script (Cache.protocol Nat Nat) Unit Unit := .call (.put 1 5) fun _ => .done ()
    let client : Client (Cache.protocol Nat Nat) Unit
      | .price _ => .done (8 : UInt64)
      | .departed _ => .done ()
    let opening : Moment Cache.service Unit Unit := .opening script () (Lru.ofLimit 20)
    let cache := (opening.advance client 2).2.state
    let settings : Suite.Settings := { resultLimit := 6, bitmapLimit := 10000, bufferLimit := 100, poolsBitmaps := true }
    let rescaled := ((Suite.ofSettings settings : Suite Nat).history [.callBitmaps (.rescale Multiplier.half)]).2
    halved.perform (.rescale minusOne) = (.rescaled (.error ⟨minusOne⟩), halved) ∧
    (∃ evicted final, halved.perform (.rescale Multiplier.one) = (.rescaled (.ok evicted), final) ∧ final.limit = 20) ∧
    Cache.start (.rescale minusOne) cache = (.replied (.error ⟨minusOne⟩), cache) ∧
    (rescaled.allow .high).1 = .ok rescaled.allowance ∧
      (rescaled.allow .high).2.surroundings.bitmaps.usage.limit = 15000 := by
  intro halving halved minusOne script client opening cache settings rescaled
  obtain ⟨_, stores, caches, _, _, suites⟩ := rescaling_is_all_or_nothing (κ := Nat) (α := Nat) (ν := Nat) (ℓ := Nat)
    (β := Buffer) (σ := Extent)
  have refused : minusOne.Refused := by decide
  obtain ⟨unchanged, _⟩ := stores 20 halving minusOne
  obtain ⟨_, restored⟩ := stores 20 halving Multiplier.one
  obtain ⟨evicted, final, ⟨_, limit, _⟩, done⟩ := restored (by decide)
  have twenty : scaleSize 20 Multiplier.one = 20 := by decide
  have reached : Cache.service.Reaches (Lru.ofLimit 20) cache := ⟨Unit, Unit, client, script, (), 2, rfl⟩
  have allowed := suites settings [.callBitmaps (.rescale Multiplier.half)]
    (List.forall_mem_cons.mpr ⟨trivial, fun _ none => nomatch none⟩) .high
  have enlarged : settings.scaledBitmapLimit Allowance.high.multiplier = 15000 := by decide
  exact ⟨unchanged refused, ⟨evicted, final, done, limit.trans twenty⟩, (caches 20 cache reached minusOne).1 refused,
    allowed.reply, allowed.bitmapLimit.trans enlarged⟩

end MemoryBudget
