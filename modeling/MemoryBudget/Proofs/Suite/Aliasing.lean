import MemoryBudget.Proofs.Suite.Batches
import Mathlib

/-!
# Recycling never aliases

For every run of a suite: when a bitmap is handed to the pool no other handle to it is alive, and none is ever again.
What a single call lets go of for good is handed over once, at the last report about it, and a put never hands over
the bitmap that it is about to return.
-/

set_option autoImplicit false

namespace MemoryBudget

namespace Suite

open Shared Lru

variable {κ : Type} [BEq κ] [Hashable κ]

/-- A call that takes whatever has to leave out of the cache, and returns nothing. -/
def Sheds : Shared.Call κ Bitmap Listener → Prop
  | .clear | .trim _ | .rescale _ => True
  | _ => False

variable {dead : List Handle} {state : State κ Bitmap Listener} {surroundings : Surroundings}

variable [EquivBEq κ] [LawfulHashable κ]

/-- A call that sheds does nothing, or reports what leaves. -/
theorem shed_starts (sound : Sound dead state []) {request : Shared.Call κ Bitmap Listener} (sheds : Sheds request) :
    (∃ reply, start request state = (.replied reply, state)) ∨
      ∃ reply evicted store, Lru.Sheds state.store (evicted, store) ∧
        start request state = report reply none (values evicted) { state with store := store } := by
  cases request with
  | clear => exact Or.inr ⟨(), _, _, sound.intact.clear_sheds, rfl⟩
  | trim pressure => exact Or.inr ⟨(), _, _, sound.intact.pressure_sheds pressure, rfl⟩
  | rescale multiplier =>
      rw [start]
      rcases sound.intact.rescale_sheds multiplier with ⟨invalid, refused⟩ | ⟨outcome, rescaled, sheds⟩
      · rw [refused]
        exact Or.inl ⟨_, rfl⟩
      · rw [rescaled]
        exact Or.inr ⟨_, _, _, sheds, rfl⟩
  | _ => exact sheds.elim

/-- When all the entries of an allocation leave at once and nobody else has a handle to it. -/
theorem handed_at_last_of_shed (sound : Sound dead state []) {request : Shared.Call κ Bitmap Listener}
    (sheds : Sheds request)
    (fair : ∀ report ∈ service.inquiriesOf attendant request state surroundings, ∃ earlier, Fair earlier report)
    (recycles : state.listener = some .recycler) {probe : Handle}
    (unowned : reaching probe state.custody.handles = 0) (resident : 0 < reaching probe (values state.store.entries))
    (gone : reaching probe
      (values (service.perform attendant request state surroundings).2.1.store.entries) = 0) :
    HandedAtLast probe (service.inquiriesOf attendant request state surroundings) := by
  rcases shed_starts sound sheds with ⟨reply, started⟩ | ⟨reply, evicted, store, sheds, started⟩
  · have started' : service.start request state = (.replied reply, state) := started
    rw [Service.perform_of_replied _ _ _ _ started'] at gone
    exact absurd gone (Nat.ne_of_gt resident)
  · have reports := report_reports reply none (values evicted) { state with store := store }
    rw [← started] at reports
    have batch := batch_of_reports surroundings reports
    have queue : due (start request state).1 = values evicted := by
      rw [reports.queued]
      show (if state.listener.isSome then _ else _) = _
      rw [recycles]
      rfl
    have parted : reaching probe (values state.store.entries) =
        reaching probe (values store.entries) + reaching probe (values evicted) := by
      rw [sheds.parted, ← reaching_append]
      apply reaching_perm
      unfold values
      rw [List.map_append]
      exact ((List.reverse_perm evicted).map _).append_left _
    have stays : reaching probe (values store.entries) = 0 := by
      rw [batch.store] at gone
      exact gone
    rw [queue] at batch
    apply batch.handed_at_last fair recycles
    · unfold State.handles
      rw [reaching_append, unowned, stays]
    · omega

/-- A put has nothing to report, or returns the handle that was under the key. -/
theorem put_reports (sound : Sound dead state []) (key : κ) (surroundings : Surroundings) :
    service.inquiriesOf attendant (.put key) state surroundings = [] ∨
      ∃ origin queue, Reports origin ((state.store.meaning.find? key).map (·.value)) queue (start (.put key) state) := by
  cases letGo : state.custody.letGo? with
  | none =>
      have started : service.start (.put key) state = (.replied false, state) := by
        show start (.put key) state = _
        rw [start, letGo]
        rfl
      exact Or.inl (Service.no_inquiries_of_replied started)
  | some taken =>
      obtain ⟨handle, custody⟩ := taken
      have sound' : Sound dead { state with custody := custody } [handle] :=
        ⟨sound.intact, sound.measured, sound.balanced.taken (Custody.handles_let_go letGo)⟩
      have exchanged := sound'.exchanged key
      have started : start (.put key) state = report
          ({ state with custody := custody }.exchange key handle).1.2.isSome
          ({ state with custody := custody }.exchange key handle).1.2
          ({ state with custody := custody }.exchange key handle).1.1
          ({ state with custody := custody }.exchange key handle).2 := by
        rw [start, letGo]
      rcases exchanged.returned with nothing | returned
      · rw [nothing] at started
        exact Or.inl (Service.no_inquiries_of_replied started)
      · have reports : Reports ({ state with custody := custody }.exchange key handle).2
            ((state.store.meaning.find? key).map (·.value))
            ({ state with custody := custody }.exchange key handle).1.1 (start (.put key) state) := by
          rw [started, returned]
          exact report_reports _ _ _ _
        exact Or.inr ⟨_, _, reports⟩

/-- What a put displaces is about to be returned, so another handle to it is alive while it is reported. -/
theorem displaced_not_handed (sound : Sound dead state []) {key : κ} {older : Handle}
    (resident : state.store.peek? key = some older)
    (fair : ∀ report ∈ service.inquiriesOf attendant (.put key) state surroundings, ∃ earlier, Fair earlier report) :
    ∀ report : Report κ, report ∈ service.inquiriesOf attendant (.put key) state surroundings →
      reaching older [report.handle] = 1 → report.handed = none := by
  intro report member same
  rcases put_reports sound key surroundings with nothing | ⟨origin, queue, reports⟩
  · rw [nothing] at member
    cases member
  · have batch := batch_of_reports surroundings reports
    obtain ⟨earlier, later, parted⟩ := List.append_of_mem member
    have waits := (batch.each earlier report later parted).1
    rw [← sound.intact.peek_eq, resident] at waits
    obtain ⟨before, isFair⟩ := fair report member
    have returned : reaching older (some older).toList = 1 := by
      rw [Option.toList_some, reaching_singleton, if_pos rfl]
    apply isFair.not_handed
    rw [reaching_congr same, waits.alive, same, returned]
    omega

/-! ## The result -/

omit [EquivBEq κ] [LawfulHashable κ] in
theorem of_settings_unaliased (settings : Settings) :
    Unaliased ([] : List (Report κ)) (Suite.ofSettings settings : Suite κ).results [] where
  sound := of_limit_sound settings.resultLimit
  inHand _ member := nomatch member
  recipient _ member := nomatch member
  fair earlier report later parted := by cases earlier <;> cases parted
  distinct := List.nodup_nil

/-- In every run of a suite a bitmap is handed to the pool if the reported handle is the only one to it, and only then.
No handle to it is ever alive again, and it is not handed over a second time. A call that lets go of the last handles to
a bitmap hands it over once, at the last of its reports, and a put never hands over what was under its key. -/
theorem recycling_never_aliases (settings : Settings) (operations : List (Operation κ)) :
    let run := (Suite.ofSettings settings : Suite κ).history operations
    let suite := run.2
    (∀ earlier report later, run.1 = earlier ++ report :: later → Fair earlier report) ∧
    ((handedOver run.1).map (·.allocation)).Nodup ∧
    (∀ handle ∈ handedOver run.1, reaching handle suite.results.handles = 0) ∧
    (∀ request, Sheds request → suite.results.listener = some .recycler →
      ∀ probe, reaching probe suite.results.custody.handles = 0 →
        0 < reaching probe (values suite.results.store.entries) →
        reaching probe (values (suite.callResults request).2.results.store.entries) = 0 →
          HandedAtLast probe (suite.reportsOf request)) ∧
    (∀ key older, suite.results.store.peek? key = some older →
      ∀ report ∈ suite.reportsOf (.put key), reaching older [report.handle] = 1 → report.handed = none) := by
  intro run suite
  have unaliased : Unaliased run.1 suite.results [] := by
    have ended := unaliased_of_history operations (of_settings_unaliased (κ := κ) settings)
    rwa [List.nil_append] at ended
  -- One more call is made as fairly as the others.
  have fair : ∀ request, ∀ report ∈ suite.reportsOf request, ∃ earlier, Fair earlier report := by
    intro request report member
    have called := unaliased.called request suite.surroundings
    obtain ⟨earlier, later, parted⟩ := List.append_of_mem (List.mem_append_right run.1 member)
    exact ⟨earlier, called.fair earlier report later parted⟩
  refine ⟨unaliased.fair, unaliased.distinct, ?_, ?_, ?_⟩
  · intro handle member
    have counted := unaliased.sound.balanced.counts handle
    rw [(unaliased.sound.balanced.dead handle member).2, show waiting [] = [] from rfl, List.append_nil] at counted
    exact counted.symm
  · intro request sheds recycles probe unowned resident gone
    exact handed_at_last_of_shed unaliased.sound sheds (fair request) recycles unowned resident gone
  · intro key older resident
    exact displaced_not_handed unaliased.sound resident (fair (.put key))

/-- A bitmap under two keys to which nobody else has a handle, and another one in hand: `clear` would hand over the first
one, once, and a put of the other one would not. -/
theorem one_bitmap_under_two_keys :
    let bitmap := Bitmap.blank ⟨2, 2, .alpha8⟩
    let errand : Script (Shared.protocol Nat Bitmap Listener) Surroundings Unit := do
      request (.make bitmap 4)
      let _ ← request (.name "shared")
      let _ ← request (.copy "shared" none)
      let _ ← request (.put 1)
      let _ ← request (.take "shared")
      let _ ← request (.put 2)
      request (.make bitmap 4)
    let operations : List (Operation Nat) := [.recycleRemoved, .errand errand]
    let settings : Settings := { resultLimit := 1000, bitmapLimit := 10000, bufferLimit := 100, poolsBitmaps := true }
    let suite := ((Suite.ofSettings settings).history operations).2
    HandedAtLast ⟨0, 4⟩ (suite.reportsOf .clear) ∧
      ∀ report ∈ suite.reportsOf (.put 1), reaching ⟨0, 4⟩ [report.handle] = 1 → report.handed = none := by
  intro bitmap errand operations settings suite
  obtain ⟨_, _, _, atLast, displaced⟩ := recycling_never_aliases settings operations
  constructor
  · apply atLast .clear trivial
    · cbv
    · cbv
    · cbv
    · cbv
  · apply displaced 1 ⟨0, 4⟩
    cbv

end Suite

end MemoryBudget
