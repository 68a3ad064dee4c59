import MemoryBudget.Proofs.Suite.Recycling

/-!
# Batches of reports

What one call reports, in order. While a batch is reported the cache stays as the call left it, clients own what they
owned before and the handle that is reported, and the call still has the handles that come later and the one that it
is about to return. So the last report about an allocation finds whether anybody else has a handle to it.
-/

set_option autoImplicit false

namespace MemoryBudget

namespace Suite

open Shared

variable {κ : Type} [BEq κ] [Hashable κ]

structure Waits (origin : State κ Bitmap Listener) (returning : Option Handle) (state : State κ Bitmap Listener)
    (pending : (service (κ := κ) (ν := Bitmap) (ℓ := Listener)).Pending) : Prop where
  store : state.store = origin.store
  custody : state.custody = origin.custody.grasp (Work.reported pending.work)
  listener : state.listener = origin.listener
  recipient : origin.listener = some (Work.listener pending.work)
  returning : Work.returning pending.work = returning

def dueBy (works : List (service (κ := κ) (ν := Bitmap) (ℓ := Listener)).Pending) : List Handle :=
  works.flatMap fun pending => Work.reported pending.work :: Work.pending pending.work

structure Batch (origin : State κ Bitmap Listener) (returning : Option Handle) (queue : List Handle)
    (seen : List (Report κ)) (state : State κ Bitmap Listener)
    (works : List (service (κ := κ) (ν := Bitmap) (ℓ := Listener)).Pending) : Prop where
  reported : seen.map Report.handle ++ dueBy works = queue
  store : state.store = origin.store
  waits : ∀ pending ∈ works, Waits origin returning state pending
  each : ∀ earlier report later, seen = earlier ++ report :: later →
    Waits origin returning report.state report.toPending ∧
      queue = earlier.map Report.handle ++ report.handle :: Work.pending report.work

theorem due_by_progress {request : Shared.Call κ Bitmap Listener}
    (progress : Progress (Work request) ((Shared.protocol κ Bitmap Listener).Reply request)) :
    dueBy (service.outstanding progress) = due progress := by
  cases progress with
  | replied reply => rfl
  | waiting work => exact List.append_nil _

variable {origin : State κ Bitmap Listener} {returning : Option Handle} {queue : List Handle}

theorem waits_of_reports {state : State κ Bitmap Listener} {request : Shared.Call κ Bitmap Listener}
    {outcome : Progress (Work request) ((Shared.protocol κ Bitmap Listener).Reply request) × State κ Bitmap Listener}
    (reports : Reports state returning queue outcome) (store : state.store = origin.store)
    (custody : state.custody = origin.custody) (listener : state.listener = origin.listener) :
    ∀ pending ∈ service.outstanding outcome.1, Waits origin returning outcome.2 pending := by
  apply Service.forall_outstanding
  intro work waits
  constructor
  · exact reports.store.trans store
  · rw [reports.inHand work waits, custody]
  · exact reports.listener.trans listener
  · rw [← listener]
    exact reports.recipient work waits
  · exact reports.promised work waits

/-- A client that drops the handle in hand owns what it owned before that handle came. -/
theorem drop_hand_custody {state : State κ Bitmap Listener} {custody : Custody} {handle : Handle}
    (inHand : state.custody = custody.grasp handle) : state.dropHand.2.custody = custody := by
  unfold State.dropHand State.withHand
  rw [inHand]
  rfl

theorem Batch.answered {seen : List (Report κ)} {report : Report κ}
    (batch : Batch origin returning queue seen report.state [report.toPending]) :
    Batch origin returning queue (seen ++ [report]) (report.resumed attendant).2
      (service.outstanding (report.resumed attendant).1) := by
  have waits := batch.waits _ List.mem_cons_self
  have reports : Reports report.after (Work.returning report.work) (Work.pending report.work)
    (report.resumed attendant) := resume_reports report.work report.after
  have parted : queue = seen.map Report.handle ++ report.handle :: Work.pending report.work := by
    rw [← batch.reported, dueBy, List.flatMap_singleton]
    rfl
  have handled := drop_handled report.state
  rw [← after_eq] at handled
  have listener : report.after.listener = some report.listener :=
    handled.listener.trans (waits.listener.trans waits.recipient)
  have custody : report.after.custody = origin.custody := by
    rw [after_eq]
    exact drop_hand_custody waits.custody
  constructor
  · have left : dueBy (service.outstanding (report.resumed attendant).1) = due (report.resumed attendant).1 :=
      due_by_progress _
    rw [left, reports.queued, listener, parted, List.map_append, List.append_assoc]
    rfl
  · exact reports.store.trans (handled.store.trans waits.store)
  · rw [waits.returning] at reports
    exact waits_of_reports reports (handled.store.trans waits.store) custody (handled.listener.trans waits.listener)
  · exact forall_parted_snoc batch.each ⟨waits, parted⟩

/-- The reports of a call that has this queue. -/
theorem batch_of_reports {request : Shared.Call κ Bitmap Listener} {state : State κ Bitmap Listener}
    (surroundings : Surroundings) (reports : Reports origin returning queue (start request state)) :
    Batch origin returning (due (start request state).1)
      (service.inquiriesOf attendant request state surroundings)
      (service.perform attendant request state surroundings).2.1 [] := by
  have started : Batch origin returning (due (start request state).1) [] (start request state).2
      (service.outstanding (start request state).1) := by
    constructor
    · exact due_by_progress _
    · exact reports.store
    · exact waits_of_reports reports rfl rfl rfl
    · intro earlier report later parted
      cases earlier <;> cases parted
  have answered : ∀ seen (report : Report κ),
      Batch origin returning (due (start request state).1) seen report.state [report.toPending] →
        Batch origin returning (due (start request state).1) (seen ++ [report]) (report.resumed attendant).2
          (service.outstanding (report.resumed attendant).1) := fun seen report batch => batch.answered
  have ended := Service.perform_inquires answered request state surroundings started
  rwa [List.nil_append] at ended

/-- Whoever listens, a call that has something to report leaves the store as it is. -/
theorem store_of_report {request : Shared.Call κ Bitmap Listener} {suite : Suite κ}
    {reply : (Shared.protocol κ Bitmap Listener).Reply request} {after : State κ Bitmap Listener}
    (started : start request suite.results = report reply none queue after) :
    (suite.callResults request).2.results.store = after.store := by
  have reports := report_reports reply none queue after
  rw [← started] at reports
  exact (batch_of_reports suite.surroundings reports).store

/-! ## Who else has a handle -/

/-- Besides the reported handle those are alive that were there when the batch began, those that are still to be
reported and the one that the call returns. -/
theorem Waits.alive {report : Report κ} (waits : Waits origin returning report.state report.toPending)
    (probe : Handle) :
    reaching probe report.alive = reaching probe [report.handle] + reaching probe origin.handles +
      reaching probe (Work.pending report.work) + reaching probe returning.toList := by
  have owned : reaching probe report.state.custody.handles =
      reaching probe [report.handle] + reaching probe origin.custody.handles := by
    rw [waits.custody, reaching_perm (Custody.handles_grasp _ _)]
    exact reaching_cons _ _ _
  have held : report.held = Work.pending report.work ++ returning.toList := by
    rw [← waits.returning]
    rfl
  unfold Report.alive State.handles
  rw [held, waits.store]
  simp only [reaching_append, owned]
  omega

theorem not_handed_of_recorder {report : Report κ} (records : report.listener = .recorder) : report.handed = none := by
  unfold Report.handed
  rw [records]

/-- Nothing is handed over while another handle is alive. -/
theorem Fair.not_handed {earlier : List (Report κ)} {report : Report κ} (fair : Fair earlier report)
    (others : 1 < reaching report.handle report.alive) : report.handed = none := by
  cases listener : report.listener with
  | recorder => exact not_handed_of_recorder listener
  | recycler =>
      cases handed : report.handed with
      | none => rfl
      | some bitmap =>
          have only := (fair.handed listener).mp (by rw [handed]; rfl)
          rw [only] at others
          exact absurd others (Nat.lt_irrefl 1)

/-- Handles to one allocation are told apart by nothing but their sizes. -/
theorem reaching_congr {probe handle : Handle} (same : reaching probe [handle] = 1) (handles : List Handle) :
    reaching handle handles = reaching probe handles := by
  rw [reaching_singleton] at same
  have reached : probe.allocation = handle.allocation := by
    by_contra different
    rw [if_neg different] at same
    cases same
  unfold reaching Handle.sameAllocation
  rw [reached]

theorem reaching_zero_or_one (probe handle : Handle) :
    reaching probe [handle] = 0 ∨ reaching probe [handle] = 1 := by
  rw [reaching_singleton]
  split
  · exact Or.inr rfl
  · exact Or.inl rfl

theorem reaching_reported {probe : Handle} {reports : List (Report κ)}
    (none : ∀ report ∈ reports, reaching probe [report.handle] = 0) :
    reaching probe (reports.map Report.handle) = 0 := by
  induction reports with
  | nil => rfl
  | cons report rest ih =>
      rw [List.forall_mem_cons] at none
      rw [List.map_cons, reaching_cons, none.1, ih none.2]

/-- The last element that has the property. -/
theorem exists_last {α : Type} (property : α → Prop) {list : List α} (some : ∃ element ∈ list, property element) :
    ∃ earlier last later, list = earlier ++ last :: later ∧ property last ∧ ∀ other ∈ later, ¬ property other := by
  induction list with
  | nil =>
      obtain ⟨_, member, _⟩ := some
      cases member
  | cons first rest ih =>
      by_cases among : ∃ element ∈ rest, property element
      · obtain ⟨earlier, last, later, parted, isLast, others⟩ := ih among
        exact ⟨first :: earlier, last, later, congrArg (first :: ·) parted, isLast, others⟩
      · obtain ⟨element, member, has⟩ := some
        rcases List.mem_cons.mp member with rfl | later
        · exact ⟨[], element, rest, rfl, has, fun other present has => among ⟨other, present, has⟩⟩
        · exact absurd ⟨element, later, has⟩ among

section Whole

variable {seen : List (Report κ)} {state : State κ Bitmap Listener} {probe : Handle} {earlier later : List (Report κ)}
  {report : Report κ}

/-- The call still has the handles of the reports that come later. -/
theorem Batch.pending_eq (batch : Batch origin returning queue seen state [])
    (parted : seen = earlier ++ report :: later) : Work.pending report.work = later.map Report.handle := by
  have whole := (batch.each earlier report later parted).2
  rw [← batch.reported, dueBy, List.flatMap_nil, List.append_nil, parted, List.map_append] at whole
  have rest := List.append_cancel_left whole
  exact (List.cons.inj rest).2.symm

theorem Batch.exists_report (batch : Batch origin returning queue seen state []) (leaves : 0 < reaching probe queue) :
    ∃ report ∈ seen, reaching probe [report.handle] = 1 := by
  by_contra noReport
  have none : reaching probe (seen.map Report.handle) = 0 := by
    apply reaching_reported
    intro report member
    exact (reaching_zero_or_one probe report.handle).resolve_right fun one => noReport ⟨report, member, one⟩
  rw [← batch.reported, dueBy, List.flatMap_nil, List.append_nil, none] at leaves
  exact Nat.lt_irrefl 0 leaves

/-- As long as another report about the allocation is to come, nothing is handed over. -/
theorem Batch.not_handed (batch : Batch origin returning queue seen state [])
    (fair : ∀ report ∈ seen, ∃ earlier, Fair earlier report) (parted : seen = earlier ++ report :: later)
    (same : reaching probe [report.handle] = 1) (more : 0 < reaching probe (later.map Report.handle)) :
    report.handed = none := by
  have waits := (batch.each earlier report later parted).1
  obtain ⟨before, isFair⟩ := fair report (by rw [parted]; exact List.mem_append_right _ List.mem_cons_self)
  apply isFair.not_handed
  rw [reaching_congr same, waits.alive, same, batch.pending_eq parted]
  omega

/-- If nobody else has a handle to the allocation and no other report about it is to come, it is handed over. -/
theorem Batch.handed (batch : Batch origin none queue seen state [])
    (fair : ∀ report ∈ seen, ∃ earlier, Fair earlier report) (recycles : origin.listener = some .recycler)
    (unowned : reaching probe origin.handles = 0) (parted : seen = earlier ++ report :: later)
    (same : reaching probe [report.handle] = 1) (last : reaching probe (later.map Report.handle) = 0) :
    report.handed.isSome := by
  have waits := (batch.each earlier report later parted).1
  obtain ⟨before, isFair⟩ := fair report (by rw [parted]; exact List.mem_append_right _ List.mem_cons_self)
  have listens : report.listener = .recycler := Option.some.inj (waits.recipient.symm.trans recycles)
  apply (isFair.handed listens).mpr
  rw [reaching_congr same, waits.alive, batch.pending_eq parted, same, unowned, last]
  rfl

end Whole

/-- A bitmap is handed over with the last report about it, and only then. -/
def HandedAtLast (probe : Handle) (reports : List (Report κ)) : Prop :=
  ∃ earlier last later, reports = earlier ++ last :: later ∧ reaching probe [last.handle] = 1 ∧ last.handed.isSome ∧
    (∀ report ∈ earlier, reaching probe [report.handle] = 1 → report.handed = none) ∧
      ∀ report ∈ later, reaching probe [report.handle] = 0

/-- If nobody has a handle to an allocation but those in the queue, the last report finds that. -/
theorem Batch.handed_at_last {seen : List (Report κ)} {state : State κ Bitmap Listener}
    (batch : Batch origin none queue seen state []) (fair : ∀ report ∈ seen, ∃ earlier, Fair earlier report)
    (recycles : origin.listener = some .recycler) {probe : Handle} (unowned : reaching probe origin.handles = 0)
    (leaves : 0 < reaching probe queue) : HandedAtLast probe seen := by
  obtain ⟨earlier, last, later, parted, isLast, others⟩ := exists_last _ (batch.exists_report leaves)
  have afterwards : ∀ report ∈ later, reaching probe [report.handle] = 0 := fun report member =>
    (reaching_zero_or_one probe report.handle).resolve_right (others report member)
  refine ⟨earlier, last, later, parted, isLast, ?_, ?_, afterwards⟩
  · exact batch.handed fair recycles unowned parted isLast (reaching_reported afterwards)
  · intro report member same
    obtain ⟨first, between, rfl⟩ := List.append_of_mem member
    have parted' : seen = first ++ report :: (between ++ last :: later) := by
      rw [parted, List.append_assoc, List.cons_append]
    apply batch.not_handed fair parted' same
    rw [List.map_append, List.map_cons, reaching_append, reaching_cons, isLast]
    omega

end Suite

end MemoryBudget
