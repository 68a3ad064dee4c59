import MemoryBudget.Proofs.Pool.Relief
import MemoryBudget.Proofs.Suite.Aliasing

/-!
# Suites under pressure

A suite that is trimmed or cleared evicts from its cache first, and what leaves the cache may go to the bitmap pool in
the middle of that; then from the bitmap pool, and then from the buffer pool. So nothing escapes, and doing the same
again does nothing.
-/

set_option autoImplicit false

namespace MemoryBudget

namespace Suite

open Shared Pool
open Pool.Stock (Coherent Relieves)
open Pool.Depot (Obeys)
open Lru (giveWay Intact)

variable {κ : Type} [BEq κ] [Hashable κ]

/-! ## The pools of a suite -/

/-- Whatever puts do to the bitmap pool is all that an answer to the cache does to it. -/
theorem answer_keeps {holds : Depot Bitmap Frame → Prop}
    (put : ∀ depot bitmap, holds depot →
      holds (Depot.service.perform BitmapSource.unrestricted.supplier.attendant (.put bitmap) depot ()).2.1)
    (query : Query Listener) (state : State κ Bitmap Listener) (surroundings : Surroundings)
    (before : holds surroundings.bitmaps) : holds (attendant.answer query state surroundings).2.2.bitmaps := by
  obtain ⟨listener, handle⟩ := query
  cases listener with
  | recorder => exact before
  | recycler =>
      show holds (state.reclaimHand.1.elim surroundings surroundings.receive).bitmaps
      cases state.reclaimHand.1 with
      | none => exact before
      | some bitmap => exact put surroundings.bitmaps bitmap before

theorem perform_keeps_pool {holds : Depot Bitmap Frame → Prop}
    (put : ∀ depot bitmap, holds depot →
      holds (Depot.service.perform BitmapSource.unrestricted.supplier.attendant (.put bitmap) depot ()).2.1)
    (request : Shared.Call κ Bitmap Listener) (state : State κ Bitmap Listener) (surroundings : Surroundings)
    (before : holds surroundings.bitmaps) :
    holds (Shared.service.perform attendant request state surroundings).2.2.bitmaps :=
  Service.perform_keeps Shared.service attendant (fun _ _ surroundings => holds surroundings.bitmaps)
    (fun work state surroundings => answer_keeps put (Work.query work) state surroundings) state surroundings before

structure Furnished (settings : Settings) (suite : Suite κ) : Prop where
  bitmaps : Obeys settings.bitmapStrategy suite.surroundings.bitmaps
  bufferSettings : suite.bufferSettings = Buffer.poolSettings settings.bufferLimit
  buffers : Coherent suite.buffers

variable {settings : Settings} {suite : Suite κ}

theorem of_settings_furnished (settings : Settings) : Furnished settings (Suite.ofSettings settings : Suite κ) where
  bitmaps := Depot.obeys_depot settings.bitmapStrategy
  bufferSettings := rfl
  buffers := Stock.of_limit_coherent (Buffer.poolSettings settings.bufferLimit).limit

theorem furnished_kept (settings : Settings) : Kept (κ := κ) (Furnished settings) where
  results {suite} furnished request :=
    { furnished with
      bitmaps := perform_keeps_pool (fun _ bitmap obeys => obeys.performed _ (.put bitmap) ()) request suite.results
        suite.surroundings furnished.bitmaps }
  bitmaps furnished request := { furnished with bitmaps := furnished.bitmaps.performed _ request () }
  buffers {suite} furnished request :=
    { furnished with
      buffers := (furnished.buffers.perform_follows suite.bufferSettings Buffer.supplier request ()).2 }
  allowance furnished _ := { furnished with }
  page furnished := { furnished with }

theorem furnished_of_history (operations : List (Operation κ))
    (readOnly : ∀ operation ∈ operations, operation.ReadOnly) (furnished : Furnished settings suite) :
    Furnished settings (suite.history operations).2 :=
  (furnished_kept settings).history operations readOnly furnished

/-! ## One round of evictions -/

def callAll (suite : Suite κ) (results : Shared.Call κ Bitmap Listener) (bitmaps : Pool.Call Bitmap Frame)
    (buffers : Pool.Call Buffer Extent) : Suite κ :=
  (((suite.callResults results).2.callBitmaps bitmaps).2.callBuffers buffers).2

theorem clear_eq (suite : Suite κ) : suite.clear = suite.callAll .clear .clear .clear := rfl

theorem trim_eq (suite : Suite κ) (pressure : Pressure) :
    suite.trim pressure = suite.callAll (.trim pressure) (.trim pressure) (.trim pressure) := rfl

def Presses (pressure : Pressure) (request : Shared.Call κ Bitmap Listener)
    (reply : (Shared.protocol κ Bitmap Listener).Reply request) : Prop :=
  ∀ state : State κ Bitmap Listener, Shared.start request state =
    report reply none (values (state.store.giveWay Pressure.background pressure).1)
      { state with store := (state.store.giveWay Pressure.background pressure).2 }

theorem trim_presses (pressure : Pressure) : Presses (κ := κ) pressure (.trim pressure) () := by
  intro state
  rw [← Lru.trim_eq]
  rfl

theorem clear_presses : Presses (κ := κ) Pressure.complete .clear () :=
  fun _ => rfl

namespace Presses

variable {pressure : Pressure} {request : Shared.Call κ Bitmap Listener}
  {reply : (Shared.protocol κ Bitmap Listener).Reply request}

theorem store (presses : Presses pressure request reply) (suite : Suite κ) :
    (suite.callResults request).2.results.store =
      (suite.results.store.giveWay Pressure.background pressure).2 :=
  store_of_report (presses suite.results)

/-- Where nothing is evicted nobody is told, and nothing changes. -/
theorem idle (presses : Presses pressure request reply) {suite : Suite κ}
    (idle : suite.results.store.giveWay Pressure.background pressure = ([], suite.results.store)) :
    suite.callResults request = (reply, suite) ∧ suite.reportsOf request = [] := by
  have started : Shared.service.start request suite.results = (.replied reply, suite.results) := by
    refine Eq.trans (presses suite.results) ?_
    rw [idle]
    rfl
  have performed := Service.perform_of_replied Shared.service attendant suite.results suite.surroundings started
  refine ⟨?_, Service.no_inquiries_of_replied started⟩
  let inSuite (outcome : (Shared.protocol κ Bitmap Listener).Reply request × State κ Bitmap Listener × Surroundings) :
      (Shared.protocol κ Bitmap Listener).Reply request × Suite κ :=
    (outcome.1, { suite with results := outcome.2.1, surroundings := outcome.2.2 })
  exact congrArg inSuite performed

end Presses

structure Round (pressure : Pressure) (results : Shared.Call κ Bitmap Listener) (bitmaps : Pool.Call Bitmap Frame)
    (buffers : Pool.Call Buffer Extent) : Prop where
  results : ∃ reply, Presses pressure results reply
  bitmaps : ∃ reply, Depot.start bitmaps .unpooled = (.replied reply, .unpooled) ∧
    ∀ settings : Pool.Settings, settings.clearsAt = Pressure.hidden →
      Relieves settings (giveWay Pressure.hidden pressure) bitmaps reply
  buffers : ∃ reply, ∀ settings : Pool.Settings, settings.clearsAt = Pressure.background →
    Relieves settings (giveWay Pressure.background pressure) buffers reply

theorem trim_round (pressure : Pressure) :
    Round (κ := κ) pressure (.trim pressure) (.trim pressure) (.trim pressure) where
  results := ⟨(), trim_presses pressure⟩
  bitmaps := ⟨(), rfl, fun settings clears => clears ▸ Stock.trim_relieves settings pressure⟩
  buffers := ⟨(), fun settings clears => clears ▸ Stock.trim_relieves settings pressure⟩

theorem clear_round : Round (κ := κ) Pressure.complete .clear .clear .clear where
  results := ⟨(), clear_presses⟩
  bitmaps := ⟨(), rfl, fun settings _ => Stock.clear_relieves settings⟩
  buffers := ⟨(), fun settings _ => Stock.clear_relieves settings⟩

/-- What a round leaves: of the bitmap pool, what the cache had made of it is relieved. -/
structure Relieved (settings : Settings) (pressure : Pressure) (suite after : Suite κ) : Prop where
  results : after.results.store = (suite.results.store.giveWay Pressure.background pressure).2
  bitmaps : ∃ depot : Depot Bitmap Frame, Obeys settings.bitmapStrategy depot ∧
    depot.usage.limit = suite.surroundings.bitmaps.usage.limit ∧
      after.surroundings.bitmaps = depot.relieve (giveWay Pressure.hidden pressure)
  buffers : after.buffers = (suite.buffers.relieve (giveWay Pressure.background pressure)).2

theorem clears_at_hidden {settings' : Pool.Settings} {stock : Stock Bitmap Frame}
    (obeys : Obeys settings.bitmapStrategy (.pooled settings' stock)) : settings'.clearsAt = Pressure.hidden := by
  unfold Settings.bitmapStrategy at obeys
  split at obeys
  · cases obeys
    rfl
  · cases obeys

namespace Round

variable {pressure : Pressure} {results : Shared.Call κ Bitmap Listener} {bitmaps : Pool.Call Bitmap Frame}
  {buffers : Pool.Call Buffer Extent}

theorem bitmaps_after (round : Round pressure results bitmaps buffers) (furnished : Furnished settings suite) :
    ∃ reply, suite.surroundings.callBitmaps bitmaps = (reply, { suite.surroundings with
      bitmaps := suite.surroundings.bitmaps.relieve (giveWay Pressure.hidden pressure) }) := by
  obtain ⟨reply, unpooled, relieves⟩ := round.bitmaps
  have pooled : ∀ settings' stock, suite.surroundings.bitmaps = .pooled settings' stock →
      Relieves settings' (giveWay Pressure.hidden pressure) bitmaps reply := by
    intro settings' stock same
    have obeys := furnished.bitmaps
    rw [same] at obeys
    exact relieves settings' (clears_at_hidden obeys)
  have performed := Depot.perform_relieves pooled unpooled BitmapSource.unrestricted.supplier ()
  refine ⟨reply, ?_⟩
  rw [Surroundings.callBitmaps, performed]

theorem buffers_after (round : Round pressure results bitmaps buffers) (furnished : Furnished settings suite) :
    (suite.callBuffers buffers).2 =
      { suite with buffers := (suite.buffers.relieve (giveWay Pressure.background pressure)).2 } := by
  obtain ⟨reply, relieves⟩ := round.buffers
  have clears : suite.bufferSettings.clearsAt = Pressure.background := by
    rw [furnished.bufferSettings]
    rfl
  have performed := (relieves suite.bufferSettings clears).performs Buffer.supplier suite.buffers ()
  rw [callBuffers, performed]

/-- While the cache evicts, bitmaps may be put into the pool, which keeps its limit. -/
theorem relieved (round : Round pressure results bitmaps buffers) (furnished : Furnished settings suite) :
    Relieved settings pressure suite (suite.callAll results bitmaps buffers) := by
  obtain ⟨_, presses⟩ := round.results
  have between := (furnished_kept settings).results furnished results
  obtain ⟨_, after⟩ := round.bitmaps_after between
  have sameLimit : (suite.callResults results).2.surroundings.bitmaps.usage.limit =
      suite.surroundings.bitmaps.usage.limit := by
    let holds : Depot Bitmap Frame → Prop := fun depot =>
      Obeys settings.bitmapStrategy depot ∧ depot.usage.limit = suite.surroundings.bitmaps.usage.limit
    have kept : holds (suite.callResults results).2.surroundings.bitmaps := by
      refine perform_keeps_pool ?_ results suite.results suite.surroundings ⟨furnished.bitmaps, rfl⟩
      intro depot bitmap ⟨obeys, same⟩
      exact ⟨obeys.performed _ (.put bitmap) (), (obeys.put_limit _ bitmap ()).trans same⟩
    exact kept.2
  unfold callAll
  rw [round.buffers_after ((furnished_kept settings).bitmaps between bitmaps)]
  constructor
  · exact presses.store suite
  · refine ⟨_, between.bitmaps, sameLimit, ?_⟩
    show ((suite.callResults results).2.surroundings.callBitmaps bitmaps).2.bitmaps = _
    rw [after]
  · rfl

/-- A suite with nothing to evict stays as it is, and nobody is told of anything. -/
theorem idle (round : Round pressure results bitmaps buffers) (furnished : Furnished settings suite)
    (noResult : suite.results.store.giveWay Pressure.background pressure = ([], suite.results.store))
    (noBitmap : suite.surroundings.bitmaps.relieve (giveWay Pressure.hidden pressure) = suite.surroundings.bitmaps)
    (noBuffer : suite.buffers.store.giveWay Pressure.background pressure = ([], suite.buffers.store)) :
    suite.callAll results bitmaps buffers = suite ∧ suite.reportsOf results = [] := by
  obtain ⟨_, presses⟩ := round.results
  obtain ⟨unmoved, silent⟩ := presses.idle noResult
  obtain ⟨_, after⟩ := round.bitmaps_after furnished
  rw [noBitmap] at after
  have sameBitmaps : (suite.callBitmaps bitmaps).2 = suite := by rw [callBitmaps, after]
  refine ⟨?_, silent⟩
  rw [callAll, unmoved, sameBitmaps, round.buffers_after furnished, Stock.relieve_nothing noBuffer]

end Round

/-! ## The result -/

/-- Nothing is left of a suite but its limits: no entry, whatever it cost, and nothing in use. -/
structure Emptied (before after : Suite κ) : Prop where
  results : after.results.store.entries = []
  bitmaps : after.surroundings.bitmaps.items = []
  buffers : after.buffers.items = []
  resultUsage : Lru.Vacated before.results.store.usage after.results.store.usage
  bitmapUsage : Lru.Vacated before.surroundings.bitmaps.usage after.surroundings.bitmaps.usage
  bufferUsage : Lru.Vacated before.buffers.store.usage after.buffers.store.usage

structure Halved (before after : Suite κ) : Prop where
  results : Lru.Halved before.results.store.usage after.results.store.usage
  buffers : Lru.Halved before.buffers.store.usage after.buffers.store.usage

structure Survives (before after : Suite κ) : Prop where
  results : after.results.store.entries <+: before.results.store.entries
  buffers : after.buffers.store.entries <+: before.buffers.store.entries

theorem reports_trim (suite : Suite κ) (pressure : Pressure) :
    suite.reports (.trim pressure) = suite.reportsOf (.trim pressure) := List.append_nil _

theorem reports_clear (suite : Suite κ) : suite.reports .clear = suite.reportsOf .clear := List.append_nil _

namespace Relieved

variable {pressure : Pressure} {after : Suite κ}

theorem bitmaps_emptied (relieved : Relieved settings pressure suite after)
    (severe : Pressure.hidden.level ≤ pressure.level) :
    after.surroundings.bitmaps.items = [] ∧
      Lru.Vacated suite.surroundings.bitmaps.usage after.surroundings.bitmaps.usage := by
  obtain ⟨depot, obeys, sameLimit, final⟩ := relieved.bitmaps
  rw [final, Lru.Vacated, ← sameLimit]
  exact obeys.relieve_empties (fun _ intact => intact.give_way_settles _ _)
    fun _ intact => intact.give_way_empties severe

theorem bitmaps_halved (relieved : Relieved settings pressure suite after)
    (holds : ¬ Pressure.hidden.level ≤ pressure.level) (firm : pressure.retention = .half) :
    Lru.Halved suite.surroundings.bitmaps.usage after.surroundings.bitmaps.usage := by
  obtain ⟨depot, obeys, sameLimit, final⟩ := relieved.bitmaps
  obtain ⟨limit, used⟩ := obeys.relieve_halves fun _ intact => intact.give_way_halves holds firm
  rw [final]
  exact ⟨limit.trans sameLimit, sameLimit ▸ used⟩

variable [EquivBEq κ] [LawfulHashable κ]

theorem survives (relieved : Relieved settings pressure suite after) (intact : Intact suite.results.store)
    (coherent : Coherent suite.buffers) : Survives suite after where
  results := by
    rw [relieved.results]
    exact (intact.give_way_settles _ _).leading
  buffers := by
    rw [relieved.buffers]
    exact (coherent.intact.give_way_settles _ _).leading

theorem halved (relieved : Relieved settings pressure suite after) (intact : Intact suite.results.store)
    (coherent : Coherent suite.buffers) (holds : ¬ Pressure.background.level ≤ pressure.level)
    (firm : pressure.retention = .half) : Halved suite after where
  results := by
    rw [relieved.results]
    exact intact.give_way_halves holds firm
  buffers := by
    rw [relieved.buffers]
    exact coherent.intact.give_way_halves holds firm

theorem emptied (relieved : Relieved settings pressure suite after) (intact : Intact suite.results.store)
    (coherent : Coherent suite.buffers) (severe : Pressure.background.level ≤ pressure.level) :
    Emptied suite after := by
  have results := intact.give_way_empties severe
  have buffers := coherent.intact.give_way_empties severe
  have hidden : Pressure.hidden.level ≤ pressure.level := Int.le_trans (by decide) severe
  obtain ⟨bitmaps, bitmapUsage⟩ := relieved.bitmaps_emptied hidden
  constructor
  · rw [relieved.results, results]
  · exact bitmaps
  · rw [relieved.buffers]
    exact List.map_eq_nil_iff.mpr buffers
  · rw [relieved.results]
    exact (intact.give_way_settles _ _).vacated results
  · exact bitmapUsage
  · rw [relieved.buffers]
    exact (coherent.intact.give_way_settles _ _).vacated buffers

/-- A second round finds nothing. -/
theorem again (relieved : Relieved settings pressure suite after) (intact : Intact suite.results.store)
    (coherent : Coherent suite.buffers) (furnished : Furnished settings after)
    {results : Shared.Call κ Bitmap Listener} {bitmaps : Pool.Call Bitmap Frame} {buffers : Pool.Call Buffer Extent}
    (round : Round pressure results bitmaps buffers) :
    after.callAll results bitmaps buffers = after ∧ after.reportsOf results = [] := by
  apply round.idle furnished
  · rw [relieved.results]
    exact (intact.give_way_settles _ _).again
  · obtain ⟨depot, obeys, _, final⟩ := relieved.bitmaps
    rw [final]
    exact obeys.relieve_again fun _ intact => intact.give_way_settles _ _
  · rw [relieved.buffers]
    exact (coherent.intact.give_way_settles _ _).again

end Relieved

variable [EquivBEq κ] [LawfulHashable κ]

theorem mild_of_everything {pressure : Pressure} (mild : pressure.retention = .everything) :
    ¬ Pressure.background.level ≤ pressure.level ∧ ¬ Pressure.hidden.level ≤ pressure.level := by
  unfold Pressure.retention at mild
  split at mild
  · cases mild
  · rename_i background
    split at mild
    · cases mild
    · rename_i neither
      exact ⟨background, fun hidden => neither (Or.inl hidden)⟩

theorem half_of_between {pressure : Pressure} (background : ¬ Pressure.background.level ≤ pressure.level)
    (firm : Pressure.hidden.level ≤ pressure.level ∨ pressure = Pressure.runningCritical) :
    pressure.retention = .half := by
  rw [Pressure.retention, if_neg background, if_pos firm]

structure GivesWay (suite : Suite κ) (pressure : Pressure) : Prop where
  /-- Mild pressure changes nothing, and nobody is told of anything. -/
  mild : pressure.retention = .everything →
    suite.trim pressure = suite ∧ suite.reports (.trim pressure) = []
  critical : pressure.level = 15 → Halved suite (suite.trim pressure) ∧
    Lru.Halved suite.surroundings.bitmaps.usage (suite.trim pressure).surroundings.bitmaps.usage
  /-- The bitmap pool is empty, with what the cache put into it in the same call. -/
  hidden : 20 ≤ pressure.level → pressure.level < 40 → Halved suite (suite.trim pressure) ∧
    (suite.trim pressure).surroundings.bitmaps.items = [] ∧
    Lru.Vacated suite.surroundings.bitmaps.usage (suite.trim pressure).surroundings.bitmaps.usage
  background : 40 ≤ pressure.level → Emptied suite (suite.trim pressure)
  survivors : Survives suite (suite.trim pressure)
  again : (suite.trim pressure).trim pressure = suite.trim pressure ∧
    (suite.trim pressure).reports (.trim pressure) = []

theorem gives_way (furnished : Furnished settings suite) (intact : Intact suite.results.store) (pressure : Pressure) :
    GivesWay suite pressure := by
  have coherent := furnished.buffers
  have round := trim_round (κ := κ) pressure
  have relieved : Relieved settings pressure suite (suite.trim pressure) := round.relieved furnished
  have after : Furnished settings (suite.trim pressure) := (furnished_kept settings).performed furnished (.trim pressure) trivial
  constructor
  · intro mild
    obtain ⟨background, hidden⟩ := mild_of_everything mild
    have noBitmap : suite.surroundings.bitmaps.relieve (giveWay Pressure.hidden pressure) =
        suite.surroundings.bitmaps := Depot.relieve_nothing (Lru.give_way_nothing hidden mild) _
    obtain ⟨unmoved, silent⟩ := round.idle furnished (Lru.give_way_nothing background mild _) noBitmap
      (Lru.give_way_nothing background mild _)
    exact ⟨unmoved, (reports_trim suite pressure).trans silent⟩
  · intro critical
    have background : ¬ Pressure.background.level ≤ pressure.level := by
      rw [critical]
      decide
    have hidden : ¬ Pressure.hidden.level ≤ pressure.level := by
      rw [critical]
      decide
    have firm := half_of_between background (Or.inr (congrArg Pressure.mk critical))
    exact ⟨relieved.halved intact coherent background firm, relieved.bitmaps_halved hidden firm⟩
  · intro hidden visible
    have background : ¬ Pressure.background.level ≤ pressure.level := Int.not_le.mpr visible
    have firm := half_of_between background (Or.inl hidden)
    exact ⟨relieved.halved intact coherent background firm, relieved.bitmaps_emptied hidden⟩
  · exact relieved.emptied intact coherent
  · exact relieved.survives intact coherent
  · obtain ⟨unmoved, silent⟩ := relieved.again intact coherent after round
    exact ⟨unmoved, (reports_trim _ pressure).trans silent⟩

theorem clears (furnished : Furnished settings suite) (intact : Intact suite.results.store) :
    Emptied suite suite.clear ∧ suite.clear.clear = suite.clear ∧ suite.clear.reports .clear = [] := by
  have round := clear_round (κ := κ)
  have relieved := round.relieved furnished
  rw [← clear_eq] at relieved
  have after : Furnished settings suite.clear := (furnished_kept settings).performed furnished .clear trivial
  obtain ⟨unmoved, silent⟩ := relieved.again intact furnished.buffers after round
  rw [← clear_eq] at unmoved
  have severe : Pressure.background.level ≤ Pressure.complete.level := by decide
  exact ⟨relieved.emptied intact furnished.buffers severe, unmoved, (reports_clear _).trans silent⟩

/-- After any run of a suite: mild pressure changes nothing and nobody is told of anything. Under critical pressure at
most half of each limit stays in use. Once the application is hidden the bitmap pool is empty, with what the cache put
into it in the same call, and in the background, or when it is cleared, all three are. What stays are the freshest
entries in their order. The same once more changes nothing, and nobody is told of anything. -/
theorem giving_way_is_complete (settings : Settings) (operations : List (Operation κ))
    (readOnly : ∀ operation ∈ operations, operation.ReadOnly) :
    let suite := ((Suite.ofSettings settings : Suite κ).history operations).2
    (∀ pressure, GivesWay suite pressure) ∧
      Emptied suite suite.clear ∧ suite.clear.clear = suite.clear ∧ suite.clear.reports .clear = [] := by
  intro suite
  have furnished : Furnished settings suite :=
    furnished_of_history operations readOnly (of_settings_furnished settings)
  have intact : Intact suite.results.store :=
    (unaliased_of_history operations (of_settings_unaliased settings)).sound.intact
  exact ⟨gives_way furnished intact, clears furnished intact⟩

/-- More than half of the cache is in use, so its bitmap goes to the pool, which is emptied in the same call. -/
theorem recycled_bitmap_does_not_stay :
    let bitmap := Bitmap.blank ⟨2, 2, .alpha8⟩
    let errand : Script (Shared.protocol Nat Bitmap Listener) Surroundings Unit :=
      .call (.make bitmap 4) fun _ => .call (.put 1) fun _ => .done ()
    let operations : List (Operation Nat) := [.recycleRemoved, .errand errand]
    let settings : Settings := { resultLimit := 6, bitmapLimit := 10000, bufferLimit := 100, poolsBitmaps := true }
    let suite := ((Suite.ofSettings settings).history operations).2
    suite.results.listener = some .recycler ∧ suite.results.store.limit = 6 ∧ suite.results.store.used = 4 ∧
      (suite.trim Pressure.hidden).results.store.used ≤ 3 ∧
      (suite.trim Pressure.hidden).surroundings.bitmaps.items = [] ∧
        (suite.trim Pressure.hidden).trim Pressure.hidden = suite.trim Pressure.hidden := by
  intro bitmap errand operations settings suite
  have readOnly : ∀ operation ∈ operations, operation.ReadOnly :=
    List.forall_mem_cons.mpr ⟨trivial, List.forall_mem_cons.mpr ⟨fun _ _ => trivial, fun _ none => nomatch none⟩⟩
  obtain ⟨givesWay, _⟩ := giving_way_is_complete settings operations readOnly
  have way : GivesWay suite Pressure.hidden := givesWay Pressure.hidden
  have recycles : suite.results.listener = some .recycler := by cbv
  have limit : suite.results.store.limit = 6 := by cbv
  have before : suite.results.store.used = 4 := by cbv
  clear_value suite
  obtain ⟨⟨results, _⟩, bitmaps, _⟩ := way.hidden (by decide) (by decide)
  have used : (suite.trim Pressure.hidden).results.store.used ≤ halfSize suite.results.store.limit := results.used
  rw [limit] at used
  exact ⟨recycles, limit, before, used, bitmaps, way.again.1⟩

end Suite

end MemoryBudget
