import MemoryBudget.Proofs.Shared.Steps
import MemoryBudget.Proofs.Suite.Operations

/-!
# Recycled bitmaps

A bitmap that the cache lets go of is handed to the pool if the reported handle is the only one to it. So no handle to a
bitmap in the pool is alive, whether a client owns it, an entry does, the rest of a batch does or a put is about to
return it, and no bitmap is handed over twice.
-/

set_option autoImplicit false

namespace MemoryBudget

namespace Suite

open Shared

variable {κ : Type} [BEq κ] [Hashable κ]

namespace Report

def listener (report : Report κ) : Listener := Work.listener report.work

def handle (report : Report κ) : Handle := Work.reported report.work

def held (report : Report κ) : List Handle := Work.held report.work

def after (report : Report κ) : State κ Bitmap Listener := (report.answered attendant).2.1

def alive (report : Report κ) : List Handle := report.state.handles ++ report.held

def aliveAfter (report : Report κ) : List Handle := report.after.handles ++ report.held

/-- The bitmap that is handed to the pool. -/
def handed (report : Report κ) : Option Bitmap :=
  match report.listener with
  | .recorder => none
  | .recycler => report.state.reclaimHand.1

end Report

def handedOver (reports : List (Report κ)) : List Handle :=
  (reports.filter (·.handed.isSome)).map Report.handle

structure Fair (earlier : List (Report κ)) (report : Report κ) : Prop where
  recipient : report.state.listener = some report.listener
  /-- The bitmap is handed over if no other handle to it is alive, and only then. -/
  handed : report.listener = .recycler → (report.handed.isSome ↔ reaching report.handle report.alive = 1)
  bitmap : ∀ bitmap, report.handed = some bitmap → report.state.allocations.value? report.handle = some bitmap
  /-- What is handed over is put into the pool, and nothing else happens to it. -/
  pool : (report.answered attendant).2.2.bitmaps =
    report.handed.elim report.memory.bitmaps fun bitmap => (report.memory.callBitmaps (.put bitmap)).2.bitmaps
  /-- No handle is alive to a bitmap that was handed over before. -/
  before : ∀ handle ∈ handedOver earlier, reaching handle report.alive = 0
  after : ∀ handle ∈ handedOver (earlier ++ [report]), reaching handle report.aliveAfter = 0

theorem handed_over_append (reports more : List (Report κ)) :
    handedOver (reports ++ more) = handedOver reports ++ handedOver more := by
  unfold handedOver
  rw [List.filter_append, List.map_append]

/-! ## One report -/

theorem reclaim_hand_state (state : State κ Bitmap Listener) : state.reclaimHand.2 = state.dropHand.2 := by
  unfold State.reclaimHand State.dropHand State.withHand
  cases state.custody.letGo? <;> rfl

/-- Whoever listens, the handle in hand is dropped. -/
theorem after_eq (report : Report κ) : report.after = report.state.dropHand.2 := by
  obtain ⟨⟨request, ⟨listener, handle, pending, returning, reply⟩⟩, state, surroundings⟩ := report
  cases listener with
  | recorder => rfl
  | recycler => exact reclaim_hand_state state

theorem pool_eq (report : Report κ) : (report.answered attendant).2.2.bitmaps =
    report.handed.elim report.memory.bitmaps fun bitmap => (report.memory.callBitmaps (.put bitmap)).2.bitmaps := by
  obtain ⟨⟨request, ⟨listener, handle, pending, returning, reply⟩⟩, state, surroundings⟩ := report
  cases listener with
  | recorder => rfl
  | recycler =>
      show (state.reclaimHand.1.elim surroundings surroundings.receive).bitmaps =
        state.reclaimHand.1.elim surroundings.bitmaps _
      cases state.reclaimHand.1 with
      | none => rfl
      | some bitmap => rfl

variable {state : State κ Bitmap Listener} {handle : Handle}

theorem drop_hand_allocations (inHand : state.custody.inHand.head? = some handle) :
    state.dropHand.2.allocations = state.allocations.drop handle := by
  obtain ⟨rest, held⟩ := List.head?_eq_some_iff.mp inHand
  unfold State.dropHand State.withHand Custody.letGo?
  rw [held]
  rfl

/-- Who gives up the only handle receives the bitmap. -/
theorem reclaim_hand_value (inHand : state.custody.inHand.head? = some handle) :
    state.reclaimHand.1 =
      if state.allocations.handles handle = 1 then state.allocations.value? handle else none := by
  obtain ⟨rest, held⟩ := List.head?_eq_some_iff.mp inHand
  unfold State.reclaimHand State.withHand Custody.letGo?
  rw [held]
  rfl

/-- An allocation with handles has a value. -/
theorem value_of_handles {allocations : Allocations Bitmap} (alive : 0 < allocations.handles handle) :
    handle.allocation < allocations.cells.size ∧ (allocations.value? handle).isSome := by
  unfold Allocations.handles at alive
  unfold Allocations.value?
  cases found : allocations.cells[handle.allocation]? with
  | none =>
      rw [found] at alive
      cases alive
  | some cell => exact ⟨(Array.getElem?_eq_some_iff.mp found).1, rfl⟩

/-- What a report relies on: it is in hand, and every handle is counted. -/
structure InOrder (dead : List Handle) (report : Report κ) : Prop where
  sound : Sound dead report.state report.held
  inHand : report.state.custody.inHand.head? = some report.handle
  recipient : report.state.listener = some report.listener

namespace InOrder

variable {dead : List Handle} {report : Report κ}

theorem alive (inOrder : InOrder dead report) (probe : Handle) :
    report.state.allocations.handles probe = reaching probe report.alive :=
  inOrder.sound.balanced.counts probe

theorem handed_eq (inOrder : InOrder dead report) (recycles : report.listener = .recycler) :
    report.handed = if report.state.allocations.handles report.handle = 1 then
      report.state.allocations.value? report.handle else none := by
  unfold Report.handed
  rw [recycles]
  exact reclaim_hand_value inOrder.inHand

theorem handed_iff (inOrder : InOrder dead report) (recycles : report.listener = .recycler) :
    report.handed.isSome ↔ reaching report.handle report.alive = 1 := by
  rw [inOrder.handed_eq recycles, ← inOrder.alive]
  by_cases only : report.state.allocations.handles report.handle = 1
  · rw [if_pos only]
    have present : 0 < report.state.allocations.handles report.handle := by
      rw [only]
      exact Nat.one_pos
    exact iff_of_true (value_of_handles present).2 only
  · rw [if_neg only]
    exact iff_of_false Bool.false_ne_true only

/-- What is handed over is what the handle reached, and it was the only one. -/
theorem of_handed (inOrder : InOrder dead report) {bitmap : Bitmap} (handed : report.handed = some bitmap) :
    report.state.allocations.handles report.handle = 1 ∧
      report.state.allocations.value? report.handle = some bitmap := by
  cases recycles : report.listener with
  | recorder =>
      unfold Report.handed at handed
      rw [recycles] at handed
      cases handed
  | recycler =>
      rw [inOrder.handed_eq recycles] at handed
      by_cases only : report.state.allocations.handles report.handle = 1
      · rw [if_pos only] at handed
        exact ⟨only, handed⟩
      · rw [if_neg only] at handed
        cases handed

/-- No handle is alive to what is dead. -/
theorem not_alive (inOrder : InOrder dead report) {handle : Handle} (member : handle ∈ dead) :
    reaching handle report.alive = 0 := by
  rw [← inOrder.alive]
  exact (inOrder.sound.balanced.dead handle member).2

/-- What is handed over is dead from then on. -/
theorem answered (inOrder : InOrder dead report) :
    Sound (dead ++ handedOver [report]) report.after report.held := by
  have sound : Sound dead report.after report.held := by
    rw [after_eq]
    exact (drop_handled report.state).sound inOrder.sound
  refine ⟨sound.intact, sound.measured, sound.balanced.counts, ?_⟩
  intro handle member
  rcases List.mem_append.mp member with wasDead | isHanded
  · exact sound.balanced.dead handle wasDead
  · unfold handedOver at isHanded
    cases handed : report.handed with
    | none =>
        simp [handed] at isHanded
    | some bitmap =>
        obtain ⟨only, _⟩ := inOrder.of_handed handed
        have isReported : handle = report.handle := by simpa [handed] using isHanded
        have present : 0 < report.state.allocations.handles report.handle := by
          rw [only]
          exact Nat.one_pos
        rw [isReported, after_eq, drop_hand_allocations inOrder.inHand, Allocations.handles_drop, only,
          reaching_singleton, if_pos rfl]
        exact ⟨Nat.lt_of_lt_of_eq (value_of_handles present).1 (Array.size_modify).symm, rfl⟩

theorem fair {earlier : List (Report κ)} (inOrder : InOrder (handedOver earlier) report) : Fair earlier report where
  recipient := inOrder.recipient
  handed := inOrder.handed_iff
  bitmap bitmap handed := (inOrder.of_handed handed).2
  pool := pool_eq report
  before handle member := inOrder.not_alive member
  after handle member := by
    have sound := inOrder.answered
    rw [handed_over_append] at member
    have counted : _ = reaching handle report.aliveAfter := sound.balanced.counts handle
    rw [← counted]
    exact (sound.balanced.dead handle member).2

end InOrder

/-! ## Whole runs -/

variable {seen : List (Report κ)} {works : List (service (κ := κ) (ν := Bitmap) (ℓ := Listener)).Pending}

structure Unaliased (seen : List (Report κ)) (state : State κ Bitmap Listener)
    (works : List (service (κ := κ) (ν := Bitmap) (ℓ := Listener)).Pending) : Prop where
  sound : Sound (handedOver seen) state (waiting works)
  inHand : ∀ pending ∈ works, state.custody.inHand.head? = some (Work.reported pending.work)
  recipient : ∀ pending ∈ works, state.listener = some (Work.listener pending.work)
  fair : ∀ earlier report later, seen = earlier ++ report :: later → Fair earlier report
  distinct : ((handedOver seen).map (·.allocation)).Nodup

theorem Unaliased.inOrder {report : Report κ} (unaliased : Unaliased seen report.state [report.toPending]) :
    InOrder (handedOver seen) report where
  sound := by
    have sound := unaliased.sound
    rw [show waiting [report.toPending] = report.held from List.append_nil _] at sound
    exact sound
  inHand := unaliased.inHand _ List.mem_cons_self
  recipient := unaliased.recipient _ List.mem_cons_self

/-- A bitmap that is handed over has a handle, and those that were handed over before have none. -/
theorem Unaliased.distinct_snoc {report : Report κ} (unaliased : Unaliased seen report.state [report.toPending]) :
    ((handedOver (seen ++ [report])).map (·.allocation)).Nodup := by
  have inOrder := unaliased.inOrder
  rw [handed_over_append, List.map_append]
  cases handed : report.handed with
  | none => simpa [handedOver, handed] using unaliased.distinct
  | some bitmap =>
      have fresh : report.handle.allocation ∉ (handedOver seen).map (·.allocation) := by
        intro member
        obtain ⟨handle, wasHanded, same⟩ := List.mem_map.mp member
        have none := (inOrder.sound.balanced.dead handle wasHanded).2
        rw [Allocations.handles_congr _ same, (inOrder.of_handed handed).1] at none
        cases none
      have one : (handedOver [report]).map (·.allocation) = [report.handle.allocation] := by
        simp [handedOver, handed]
      rw [one, ← List.concat_eq_append]
      exact unaliased.distinct.concat fresh

theorem Unaliased.answered {report : Report κ} (unaliased : Unaliased seen report.state [report.toPending]) :
    Unaliased (seen ++ [report]) (report.resumed attendant).2
      (service.outstanding (report.resumed attendant).1) := by
  have inOrder := unaliased.inOrder
  have reports : Reports report.after (Work.returning report.work) (Work.pending report.work)
    (report.resumed attendant) := resume_reports report.work report.after
  have waits : waiting (service.outstanding (report.resumed attendant).1) = Shared.held (report.resumed attendant).1 :=
    waiting_of_progress _
  have sound : Sound (handedOver (seen ++ [report])) report.after
      (Work.pending report.work ++ ((Work.returning report.work).toList ++ [])) := by
    rw [List.append_nil, handed_over_append]
    exact inOrder.answered
  have resumed := reports.sound sound
  rw [List.append_nil, ← waits] at resumed
  constructor
  · exact resumed
  · apply Service.forall_outstanding
    intro work waits
    rw [reports.inHand work waits]
    rfl
  · apply Service.forall_outstanding
    intro work waits
    rw [reports.listener]
    exact reports.recipient work waits
  · exact forall_parted_snoc unaliased.fair inOrder.fair
  · exact unaliased.distinct_snoc

variable [EquivBEq κ] [LawfulHashable κ]

theorem Unaliased.started {state : State κ Bitmap Listener} (unaliased : Unaliased seen state [])
    (request : Shared.Call κ Bitmap Listener) :
    Unaliased seen (service.start request state).2 (service.outstanding (service.start request state).1) := by
  have starts := start_meets unaliased.sound request
  have waits : waiting (service.outstanding (service.start request state).1) =
    Shared.held (service.start request state).1 := waiting_of_progress _
  have sound := starts.sound
  rw [show waiting [] = [] from rfl, List.append_nil] at sound
  constructor
  · rw [waits]
    exact sound
  · apply Service.forall_outstanding
    exact starts.inHand
  · apply Service.forall_outstanding
    exact starts.recipient
  · exact unaliased.fair
  · exact unaliased.distinct

theorem Unaliased.called {state : State κ Bitmap Listener} (unaliased : Unaliased seen state [])
    (request : Shared.Call κ Bitmap Listener) (surroundings : Surroundings) :
    Unaliased (seen ++ service.inquiriesOf attendant request state surroundings)
      (service.perform attendant request state surroundings).2.1 [] := by
  have answered : ∀ seen (report : Report κ), Unaliased seen report.state [report.toPending] →
      Unaliased (seen ++ [report]) (report.resumed attendant).2 (service.outstanding (report.resumed attendant).1) :=
    fun seen report unaliased => unaliased.answered
  exact Service.perform_inquires answered request state surroundings (unaliased.started request)

/-- Whatever a host does with a suite, it does to the cache by an errand. -/
theorem unaliased_of_history (operations : List (Operation κ)) {suite : Suite κ}
    (before : Unaliased seen suite.results []) :
    Unaliased (seen ++ (suite.history operations).1) (suite.history operations).2.results [] := by
  induction operations generalizing suite seen with
  | nil =>
      rw [history, List.append_nil]
      exact before
  | cons operation later ih =>
      have after : Unaliased (seen ++ suite.reports operation) (suite.perform operation).results [] := by
        rw [results_of_perform]
        apply Service.attend_inquires _ _ _ _ _ before
        · intro seen request state unaliased
          exact unaliased.started request
        · intro seen report unaliased
          exact unaliased.answered
      rw [history, ← List.append_assoc]
      exact ih after

end Suite

end MemoryBudget
