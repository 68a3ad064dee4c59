import MemoryBudget.Proofs.Shared.Reports

/-!
# What a listener sees

While a handle is reported it is in hand, and its listener may read the count of its allocation. That count also has the
handles that are on their way: those which calls in progress have not reported yet, and those which puts in progress are
about to return. A listener that decides on the count alone has to know about these.
-/

set_option autoImplicit false

namespace MemoryBudget

namespace Shared

open Lru Cache

variable {κ ν ℓ φ β : Type} [BEq κ] [Hashable κ]

/-! ## Handles on their way -/

/-- The handle that a call returns once everything is reported: a put returns the one that it found under its key. -/
def promised (call : Call κ ν ℓ × State κ ν ℓ) : List Handle :=
  match call.1 with
  | .put key => values (call.2.store.entries.find? (·.key == key)).toList
  | _ => []

namespace Register

/-- How many handles the calls in progress have still to report: what each of them owes, less what it reported. -/
def unreported (register : Register ℓ) (calls : List (Call κ ν ℓ × State κ ν ℓ)) (probe : Handle) : Nat :=
  (register.inProgress.map fun number =>
    reaching probe (calls[number]?.elim [] owed) - reaching probe (register.reportedBy number)).sum

def returning (register : Register ℓ) (calls : List (Call κ ν ℓ × State κ ν ℓ)) (probe : Handle) : Nat :=
  (register.inProgress.map fun number => reaching probe (calls[number]?.elim [] promised)).sum

end Register

structure Underway (said : List (Utterance (protocol κ ν ℓ))) (calls : List (Call κ ν ℓ × State κ ν ℓ))
    (state : State κ ν ℓ) (works : List (service (κ := κ) (ν := ν) (ℓ := ℓ)).Pending) : Prop where
  descending : (registerOf said).inProgress.Pairwise (· > ·)
  returns : works.map (fun pending => (Work.returning pending.work).toList) =
    (registerOf said).inProgress.map fun number => calls[number]?.elim [] promised
  inHand : ∀ listener handle, said.getLast? = some (.asked (.removed listener handle)) →
    state.custody.inHand.head? = some handle

variable [EquivBEq κ] [LawfulHashable κ]

/-- Only a put returns a handle, and it is the one that it found. -/
theorem start_promises {state : State κ ν ℓ} {elsewhere : List Handle} (sound : Sound [] state elsewhere)
    {request : Call κ ν ℓ} {work : Work request} (waits : (start request state).1 = .waiting work) :
    work.returning.toList = promised (request, state) := by
  cases request with
  | put key =>
      cases letGo : state.custody.letGo? with
      | none =>
          rw [start, letGo] at waits
          cases waits
      | some taken =>
          obtain ⟨handle, custody⟩ := taken
          have sound' : Sound [] { state with custody := custody } (handle :: elsewhere) :=
            ⟨sound.intact, sound.measured, sound.balanced.taken (Custody.handles_let_go letGo)⟩
          let exchanged := State.exchange { state with custody := custody } key handle
          have reports : Reports exchanged.2 exchanged.1.2 exchanged.1.1 (start (.put key) state) := by
            rw [start_put letGo]
            exact report_reports _ _ _ _
          rw [reports.promised work waits]
          rcases (sound'.exchanged key).returned with nothing | found
          · -- Without anything to report the put does not wait.
            have queued := reports.queued
            rw [nothing, ite_self, waits] at queued
            cases queued
          · rw [found]
            exact Option.toList_map
  | clear => rw [(report_reports _ _ _ _).promised work waits]; rfl
  | trim pressure => rw [(report_reports _ _ _ _).promised work waits]; rfl
  | rescale multiplier =>
      rw [start] at waits
      split at waits
      · rw [(report_reports _ _ _ _).promised work waits]; rfl
      · cases waits
  | _ => cases waits

section Steps

variable {said : List (Utterance (protocol κ ν ℓ))} {calls : List (Call κ ν ℓ × State κ ν ℓ)} {state : State κ ν ℓ}
  {works : List (service (κ := κ) (ν := ν) (ℓ := ℓ)).Pending}

theorem Underway.started (underway : Underway said calls state works)
    (recorded : Recorded (registerOf said) calls state works) (request : Call κ ν ℓ) :
    Underway (said ++ [.called request, service.announce request (start request state).1])
      (calls ++ [(request, state)]) (start request state).2
      (service.outstanding (start request state).1 ++ works) := by
  have older : ∀ number ∈ (registerOf said).inProgress, number < calls.length := recorded.numbers
  have earlier : works.map (fun pending => (Work.returning pending.work).toList) =
      (registerOf said).inProgress.map fun number => (calls ++ [(request, state)])[number]?.elim [] promised := by
    rw [underway.returns]
    apply List.map_congr_left
    intro number member
    rw [List.getElem?_append_left (older number member)]
  have inHand := (start_meets recorded.sound request).inHand
  have promises : ∀ work, (start request state).1 = .waiting work → work.returning.toList = promised (request, state) :=
    fun _ waits => start_promises recorded.sound waits
  generalize start request state = outcome at inHand promises
  obtain ⟨progress, state'⟩ := outcome
  cases progress with
  | replied reply =>
      constructor
      · rw [register_of_append]
        exact underway.descending
      · rw [register_of_append]
        exact earlier
      · intro listener handle last
        rw [List.getLast?_append] at last
        cases last
  | waiting work =>
      constructor
      · rw [register_of_append]
        apply List.pairwise_cons.mpr ⟨_, underway.descending⟩
        rw [recorded.counted]
        exact older
      · have own : work.returning.toList =
            (calls ++ [(request, state)])[(registerOf said).calls]?.elim [] promised := by
          rw [promises work rfl, recorded.counted, List.getElem?_concat_length, Option.elim_some]
        rw [register_of_append]
        exact congrArg₂ List.cons own earlier
      · intro listener handle last
        rw [List.getLast?_append] at last
        cases last
        exact inHand work rfl

omit [EquivBEq κ] [LawfulHashable κ] in
theorem Underway.resumed {request : Call κ ν ℓ} {work : Work request}
    (underway : Underway said calls state (⟨request, work⟩ :: works)) :
    Underway (said ++ [.answered work.query (), service.announce request (resume work () state).1]) calls
      (resume work () state).2 (service.outstanding (resume work () state).1 ++ works) := by
  have reports := resume_reports work state
  have returns := underway.returns
  have descending := underway.descending
  cases inner : (registerOf said).inProgress with
  | nil =>
      rw [inner] at returns
      cases returns
  | cons number numbers =>
      rw [inner] at returns descending
      obtain ⟨own, others⟩ := List.cons.inj returns
      generalize resume work () state = outcome at reports
      obtain ⟨progress, state'⟩ := outcome
      cases progress with
      | replied reply =>
          have rest : (registerOf (said ++ [.answered work.query (), .replied request reply])).inProgress = numbers := by
            rw [register_of_append]
            show (registerOf said).inProgress.tail = numbers
            rw [inner, List.tail_cons]
          constructor
          · show (registerOf (said ++ [.answered work.query (), .replied request reply])).inProgress.Pairwise _
            rw [rest]
            exact descending.of_cons
          · show _ = (registerOf (said ++ [.answered work.query (), .replied request reply])).inProgress.map _
            rw [rest]
            exact others
          · intro listener handle last
            rw [List.getLast?_append] at last
            cases last
      | waiting later =>
          constructor
          · rw [register_of_append]
            exact underway.descending
          · rw [register_of_append]
            show later.returning.toList :: _ = (registerOf said).inProgress.map _
            rw [reports.promised later rfl, inner]
            exact returns
          · intro listener handle last
            rw [List.getLast?_append] at last
            cases last
            rw [reports.inHand later rfl]
            rfl

end Steps

theorem underway_of_advance (limit : UInt64) (client : Client (protocol κ ν ℓ) φ)
    (script : Script (protocol κ ν ℓ) φ β) (memory : φ) (steps : Nat) :
    let first : Moment service φ β := .opening script memory (State.ofLimit limit)
    Underway (first.advance client steps).1 (first.occasions client steps)
      (first.advance client steps).2.state (first.advance client steps).2.works := by
  intro first
  have recorded : Recorded (registerOf ([] : List (Utterance (protocol κ ν ℓ)))) [] first.state first.works :=
    recorded_of_advance limit client script memory 0
  have underway : Underway [] [] first.state first.works :=
    ⟨List.Pairwise.nil, rfl, fun _ _ last => nomatch last⟩
  have both := first.advance_preserves client steps
    (fun said calls state works =>
      Recorded (registerOf said) calls state works ∧ Underway said calls state works)
    (by
      intro said calls state works request ⟨recorded, underway⟩
      refine ⟨?_, underway.started recorded request⟩
      rw [register_of_append]
      exact recorded.started request)
    (by
      intro said calls state works request work answer ⟨recorded, underway⟩
      refine ⟨?_, underway.resumed⟩
      rw [register_of_append]
      exact recorded.resumed)
    ⟨recorded, underway⟩
  exact both.2

/-! ## Counts -/

section Counts

variable {register : Register ℓ} {calls : List (Call κ ν ℓ × State κ ν ℓ)}
  {works : List (service (κ := κ) (ν := ν) (ℓ := ℓ)).Pending}

omit [EquivBEq κ] [LawfulHashable κ] in
/-- What the calls in progress have to report is told apart by their numbers. -/
theorem pending_of_descending {numbers : List Nat} (descending : numbers.Pairwise (· > ·))
    (numbered : numbers.length = works.length) (probe : Handle) :
    (numbers.map fun number => reaching probe (pendingBy number numbers works)).sum =
      (works.map fun pending => reaching probe (Work.pending pending.work)).sum := by
  induction numbers generalizing works with
  | nil =>
      rw [List.eq_nil_of_length_eq_zero numbered.symm]
      rfl
  | cons number numbers ih =>
      cases works with
      | nil => cases numbered
      | cons pending works =>
          obtain ⟨largest, descending⟩ := List.pairwise_cons.mp descending
          have others : ∀ other ∈ numbers,
              reaching probe (pendingBy other (number :: numbers) (pending :: works)) =
                reaching probe (pendingBy other numbers works) := by
            intro other member
            rw [pendingBy, if_neg (Nat.ne_of_gt (largest other member)), List.nil_append]
          rw [List.map_cons, List.sum_cons, List.map_congr_left others, ih descending (Nat.succ.inj numbered),
            pendingBy, if_pos rfl, pending_of_absent largest, List.append_nil, List.map_cons, List.sum_cons]

omit [EquivBEq κ] [LawfulHashable κ] in
theorem reaching_waiting (probe : Handle) :
    reaching probe (waiting works) =
      (works.map fun pending => reaching probe (Work.pending pending.work)).sum +
        (works.map fun pending => reaching probe (Work.returning pending.work).toList).sum := by
  rw [reaching, waiting, List.countP_flatMap, ← List.sum_map_add]
  apply congrArg List.sum
  apply List.map_congr_left
  intro pending _
  exact reaching_append probe _ _

omit [EquivBEq κ] [LawfulHashable κ] in
/-- What the calls in progress keep, told by what was heard of them. -/
theorem Recorded.reaching_waiting {said : List (Utterance (protocol κ ν ℓ))} {state : State κ ν ℓ}
    (recorded : Recorded (registerOf said) calls state works) (underway : Underway said calls state works)
    (probe : Handle) :
    reaching probe (waiting works) =
      (registerOf said).unreported calls probe + (registerOf said).returning calls probe := by
  have pending : ∀ number ∈ (registerOf said).inProgress,
      reaching probe (pendingBy number (registerOf said).inProgress works) =
        reaching probe (calls[number]?.elim [] Shared.owed) - reaching probe ((registerOf said).reportedBy number) := by
    intro number member
    have made := List.getElem?_eq_getElem (recorded.numbers number member)
    have divided := reaching_perm (recorded.owed number _ made) probe
    rw [reaching_append] at divided
    rw [made, Option.elim_some, ← divided, Nat.add_sub_cancel_left]
  have returns := congrArg (fun handles => (handles.map (reaching probe)).sum) underway.returns
  rw [List.map_map, List.map_map] at returns
  rw [Shared.reaching_waiting, ← pending_of_descending underway.descending recorded.numbered, Register.unreported,
    List.map_congr_left pending, Register.returning]
  exact congrArg _ returns

end Counts

/-! ## A displacement -/

/-- A handle to another allocation takes the place of the one under its key. The latter is reported first, as a copy of
the one that will be returned. -/
theorem Sound.put_displaces {state : State κ ν ℓ} (sound : Sound [] state []) {key : κ} {listener : ℓ}
    {offered : Handle} {entry : Entry κ Handle} (installed : state.listener = some listener)
    (inHand : state.custody.inHand.head? = some offered) (affordable : offered.size < state.store.limit)
    (found : state.store.entries.find? (·.key == key) = some entry) (other : (entry.value == offered) = false) :
    service.announce (.put key) (start (.put key) state).1 = .asked (.removed listener entry.value) ∧
      (start (.put key) state).2.allocations = state.allocations.copy entry.value := by
  obtain ⟨rest, held⟩ := List.head?_eq_some_iff.mp inHand
  have letGo : state.custody.letGo? = some (offered, { state.custody with inHand := rest }) := by
    rw [Custody.letGo?, held]
  rcases sound.intact.exchange_cases ⟨key, offered, offered.size⟩ with
    ⟨tooLarge, _⟩ | ⟨_, evicted, store, _, admitted, _⟩
  · exact absurd affordable (UInt64.not_lt.mpr tooLarge)
  · have found' : state.store.meaning.find? key = some entry := found
    have displaced : displacement (some entry) key offered = [⟨{ entry with key := key }, .displaced⟩] := by
      simp [displacement, bne, other]
    rw [found', displaced] at admitted
    let kept : State κ ν ℓ := { state with custody := { state.custody with inHand := rest }, store := store }
    have exchanged : State.exchange { state with custody := { state.custody with inHand := rest } } key offered =
        ((entry.value :: values evicted, some entry.value), kept.countCopy entry.value) := by
      have collected := collect_displaced { entry with key := key } evicted kept
      rw [State.exchange, admitted]
      exact congrArg (fun outcome => ((outcome.1, some entry.value), outcome.2)) collected
    have reported : start (.put key) state = (.waiting ⟨listener, entry.value, values evicted, some entry.value, true⟩,
        (kept.countCopy entry.value).grasp entry.value) := by
      rw [start_put letGo, exchanged]
      exact report_of_listener _ _ _ _ installed
    rw [reported]
    exact ⟨rfl, rfl⟩

/-! ## A clear whose listener drops what is reported -/

def Call.Looks : Call κ ν ℓ → Prop
  | .inspect | .contains _ | .usage => True
  | _ => False

omit [EquivBEq κ] [LawfulHashable κ] in
theorem start_of_looks {request : Call κ ν ℓ} (looks : request.Looks) (state : State κ ν ℓ) :
    ∃ reply, start request state = (.replied reply, state) := by
  cases request with
  | inspect => exact ⟨_, rfl⟩
  | contains key => exact ⟨_, rfl⟩
  | usage => exact ⟨_, rfl⟩
  | _ => exact looks.elim

/-- The script may look around, and if it is `burdened` it drops the handle in hand. It makes no other calls. -/
inductive Drops {α : Type} : Bool → Script (protocol κ ν ℓ) φ α → Prop
  | done (result : α) : Drops false (.done result)
  | consult {burdened : Bool} {next : φ → Script (protocol κ ν ℓ) φ α} (rest : ∀ memory, Drops burdened (next memory)) :
      Drops burdened (.consult next)
  | remember {burdened : Bool} {memory : φ} {next : Script (protocol κ ν ℓ) φ α} (rest : Drops burdened next) :
      Drops burdened (.remember memory next)
  | look {burdened : Bool} {request : Call κ ν ℓ} {next : (protocol κ ν ℓ).Reply request → Script (protocol κ ν ℓ) φ α}
      (looks : request.Looks) (rest : ∀ reply, Drops burdened (next reply)) : Drops burdened (.call request next)
  | drop {next : Bool → Script (protocol κ ν ℓ) φ α} (rest : ∀ reply, Drops false (next reply)) :
      Drops true (.call .drop next)

/-- The report that was made last, if it was, with the number of handles to its allocation. -/
def sighted (said : List (Utterance (protocol κ ν ℓ))) (state : State κ ν ℓ) : List (Handle × Nat) :=
  match said.getLast? with
  | some (.asked (.removed _ handle)) => [(handle, state.allocations.handles handle)]
  | _ => []

omit [EquivBEq κ] [LawfulHashable κ] in
theorem sighted_last (earlier last : Utterance (protocol κ ν ℓ)) (state : State κ ν ℓ) :
    sighted [earlier, last] state = sighted [last] state := rfl

def sightings (client : Client (protocol κ ν ℓ) φ) : Nat → Moment (service (κ := κ) (ν := ν) (ℓ := ℓ)) φ β →
    List (Handle × Nat)
  | 0, _ => []
  | steps + 1, moment =>
      match moment.step client with
      | .moved said later => sighted said later.state ++ sightings client steps later
      | .ended _ => []

def countsOf (probe : Handle) (found : List (Handle × Nat)) : List Nat :=
  (found.filter fun sighting => probe.sameAllocation sighting.1).map (·.2)

/-- The dialogue comes to such a moment, and this is what the listener finds on the way. -/
def Finds (client : Client (protocol κ ν ℓ) φ) (first : Moment (service (κ := κ) (ν := ν) (ℓ := ℓ)) φ β)
    (probe : Handle) (counts : List Nat) (comes : Moment (service (κ := κ) (ν := ν) (ℓ := ℓ)) φ β → Prop) : Prop :=
  ∃ steps, comes (first.advance client steps).2 ∧ countsOf probe (sightings client steps first) = counts

section Clearing

variable {client : Client (protocol κ ν ℓ) φ} {probe : Handle} {counts : List Nat}
  {comes : Moment (service (κ := κ) (ν := ν) (ℓ := ℓ)) φ β → Prop}

omit [EquivBEq κ] [LawfulHashable κ] in
theorem finds_of_step {first later : Moment (service (κ := κ) (ν := ν) (ℓ := ℓ)) φ β}
    {said : List (Utterance (protocol κ ν ℓ))} (moved : first.step client = .moved said later)
    (finds : Finds client later probe counts comes) :
    Finds client first probe (countsOf probe (sighted said later.state) ++ counts) comes := by
  obtain ⟨steps, arrives, found⟩ := finds
  refine ⟨steps + 1, ?_, ?_⟩
  · rw [Moment.advance, moved]
    exact arrives
  · rw [sightings, moved, ← found]
    exact (congrArg _ (List.filter_append ..)).trans List.map_append

omit [EquivBEq κ] [LawfulHashable κ] in
theorem finds_of_quiet_step {first later : Moment (service (κ := κ) (ν := ν) (ℓ := ℓ)) φ β}
    {said : List (Utterance (protocol κ ν ℓ))} (moved : first.step client = .moved said later)
    (quiet : sighted said later.state = []) (finds : Finds client later probe counts comes) :
    Finds client first probe counts comes := by
  have found := finds_of_step moved finds
  rw [quiet] at found
  exact found

omit [EquivBEq κ] [LawfulHashable κ] in
/-- A script that drops the handle in hand comes to its end, and there is no report in between. -/
theorem finds_of_drops {role : Role (protocol κ ν ℓ)} {stack : Stack service φ β role}
    {script : Script (protocol κ ν ℓ) φ (role.Outcome β)} {burdened : Bool} (drops : Drops burdened script)
    {state : State κ ν ℓ}
    (continues : ∀ outcome memory,
      Finds client ⟨role, .done outcome, stack, memory, if burdened then state.dropHand.2 else state⟩ probe counts comes)
    (memory : φ) : Finds client ⟨role, script, stack, memory, state⟩ probe counts comes := by
  induction drops generalizing state memory with
  | done result => exact continues result memory
  | consult rest ih => exact finds_of_quiet_step rfl rfl (ih memory continues memory)
  | remember rest ih => exact finds_of_quiet_step rfl rfl (ih continues _)
  | @look _ request next looks rest ih =>
      obtain ⟨reply, looked⟩ := start_of_looks looks state
      exact finds_of_quiet_step (Moment.step_of_replied looked) rfl (ih reply continues memory)
  | drop rest ih => exact finds_of_quiet_step rfl rfl (ih _ continues memory)

omit [EquivBEq κ] [LawfulHashable κ] in
/-- What is found about the first handle of a queue, and about the others. -/
theorem counts_of_sighting {state : State κ ν ℓ} {handle : Handle} {pending : List Handle} (listener : ℓ)
    (balanced : Balanced [] (state.grasp handle) pending) (absent : reaching probe state.handles = 0) :
    countsOf probe (sighted [.asked (.removed listener handle)] (state.grasp handle)) ++
        (List.range' 1 (reaching probe pending)).reverse =
      (List.range' 1 (reaching probe (handle :: pending))).reverse := by
  have grasped := reaching_perm ((state.custody.handles_grasp handle).append_right (values state.store.entries)) probe
  rw [List.cons_append, reaching_cons] at grasped
  show ((List.filter _ [(handle, (state.grasp handle).allocations.handles handle)]).map _) ++ _ = _
  rw [reaching_cons probe handle pending]
  by_cases same : probe.allocation = handle.allocation
  · have alike : probe.sameAllocation handle = true := beq_iff_eq.mpr same
    have one : reaching probe [handle] = 1 := by rw [reaching_singleton, if_pos same]
    have counted := balanced.counts probe
    have inCache : reaching probe (state.grasp handle).handles = 1 + 0 := by
      rw [← one, ← absent]
      exact grasped
    rw [reaching_append, inCache, Allocations.handles_congr _ same] at counted
    simp only [List.filter_cons, alike, if_true, List.filter_nil, List.map_cons, List.map_nil, List.singleton_append]
    rw [counted, one, Nat.add_comm 1 (reaching probe pending), List.range'_1_concat, List.reverse_append]
    simp [Nat.add_comm]
  · have unlike : probe.sameAllocation handle = false := beq_eq_false_iff_ne.mpr same
    have none : reaching probe [handle] = 0 := by rw [reaching_singleton, if_neg same]
    simp [unlike, none]

def clearing (batch : List Handle) (state : State κ ν ℓ) :
    Progress (service.Work (.clear : Call κ ν ℓ)) ((protocol κ ν ℓ).Reply (.clear : Call κ ν ℓ)) × State κ ν ℓ :=
  report () none batch state

omit [EquivBEq κ] [LawfulHashable κ] in
/-- The batch of a clear is reported and dropped one by one. The listener counts down the handles to an allocation
that is held nowhere else. -/
theorem finds_of_clearing {listener : ℓ} (drops : ∀ handle, Drops true (client (.removed listener handle)))
    (next : Unit → Script (protocol κ ν ℓ) φ β) {batch : List Handle} {state : State κ ν ℓ}
    (balanced : Balanced [] state batch) (installed : state.listener = some listener)
    (absent : reaching probe state.handles = 0) (memory : φ) :
    let heard := Moment.proceed client next .bottom memory (clearing batch state)
    ∃ counts, countsOf probe (sighted [heard.1] heard.2.state) ++ counts = (List.range' 1 (reaching probe batch)).reverse ∧
      Finds client heard.2 probe counts fun last =>
        ∃ memory' state', last = ⟨.client, next (), .bottom, memory', state'⟩ := by
  induction batch generalizing state memory with
  | nil => exact ⟨[], rfl, 0, ⟨memory, state, rfl⟩, rfl⟩
  | cons handle pending ih =>
      have waits : clearing (handle :: pending) state =
          (.waiting ⟨listener, handle, pending, none, ()⟩, state.grasp handle) :=
        report_of_listener _ _ _ _ installed
      rw [waits]
      refine ⟨(List.range' 1 (reaching probe pending)).reverse, ?_, ?_⟩
      · exact counts_of_sighting listener balanced.grasped absent
      · apply finds_of_drops (drops handle)
        intro outcome memory'
        have installed' : (state.countDrop handle).listener = some listener := installed
        obtain ⟨counts, found, finds⟩ := ih balanced.dropped installed' absent memory'
        rw [← found, ← sighted_last (.answered (.removed listener handle) ())]
        exact finds_of_step rfl finds

/-- A clear between other calls, for an allocation that no client has a handle to. -/
theorem Sound.clear_finds {state : State κ ν ℓ} (sound : Sound [] state []) {listener : ℓ}
    (drops : ∀ handle, Drops true (client (.removed listener handle)))
    (installed : state.listener = some listener) (unowned : reaching probe state.custody.handles = 0)
    (next : Unit → Script (protocol κ ν ℓ) φ β) (memory : φ) :
    Finds client ⟨.client, .call .clear next, .bottom, memory, state⟩ probe
      (List.range' 1 (reaching probe (values state.store.entries))).reverse
      fun last => ∃ memory' state', last = ⟨.client, next (), .bottom, memory', state'⟩ := by
  obtain ⟨outcome, meant, _⟩ := sound.intact.clear_agrees
  let batch := values state.store.clear.1
  let emptied : State κ ν ℓ := { state with store := state.store.clear.2 }
  have all : batch = values state.store.entries.reverse := congrArg values outcome
  have nothing : emptied.store.entries = [] := congrArg RecencyList.entries meant
  have balanced : Balanced [] emptied batch := by
    apply sound.balanced.restocked
    rw [show state.store.clear.2.entries = [] from nothing, all, List.append_nil]
    exact (List.reverse_perm _).symm.map _
  have absent : reaching probe emptied.handles = 0 := by
    rw [State.handles, nothing, reaching_append, show emptied.custody = state.custody from rfl, unowned]
    rfl
  have same : reaching probe batch = reaching probe (values state.store.entries) := by
    rw [all]
    exact reaching_perm ((List.reverse_perm _).map _) probe
  obtain ⟨counts, found, finds⟩ := finds_of_clearing drops next balanced installed absent memory
  rw [← same, ← found, ← sighted_last (.called .clear)]
  exact finds_of_step rfl finds

end Clearing

/-! ## Whole dialogues -/

/-- A listener finds the handle that is reported to it, those of the clients, of the resident entries and of what the
calls in progress have still to report, and one for each put in progress that will return a handle. -/
theorem listener_sees_every_handle (limit : UInt64) (client : Client (protocol κ ν ℓ) φ)
    (script : Script (protocol κ ν ℓ) φ β) (memory : φ) (steps : Nat) :
    let first : Moment service φ β := .opening script memory (State.ofLimit limit)
    let dialogue := first.advance client steps
    let calls := first.occasions client steps
    let register := registerOf dialogue.1
    let state := dialogue.2.state
    (∀ listener handle, dialogue.1.getLast? = some (.asked (.removed listener handle)) →
      ∃ owned : Custody, state.custody = owned.grasp handle ∧
        state.allocations.handles handle =
          1 + reaching handle owned.handles + reaching handle (values state.store.entries) +
            register.unreported calls handle + register.returning calls handle) ∧
    -- Nobody else has a handle: the one that a displaced entry had is returned, and its copy is reported.
    (∀ key listener offered entry, dialogue.2.role = .client → state.listener = some listener →
      state.custody.inHand.head? = some offered → offered.size < state.store.limit →
      state.store.entries.find? (·.key == key) = some entry → (entry.value == offered) = false →
      reaching entry.value state.custody.handles = 0 → reaching entry.value (values state.store.entries) = 1 →
      service.announce (.put key) (start (.put key) state).1 = .asked (.removed listener entry.value) ∧
        (start (.put key) state).2.allocations.handles entry.value = 2) ∧
    (∀ handle listener, dialogue.2.role = .client → state.listener = some listener →
      (∀ handle, Drops true (client (.removed listener handle))) → reaching handle state.custody.handles = 0 →
      ∀ (next : Unit → Script (protocol κ ν ℓ) φ β) (memory : φ),
        Finds client ⟨.client, .call .clear next, .bottom, memory, state⟩ handle
          (List.range' 1 (reaching handle (values state.store.entries))).reverse
          fun last => ∃ memory' state', last = ⟨.client, next (), .bottom, memory', state'⟩) := by
  intro first dialogue calls register state
  have recorded : Recorded register calls state dialogue.2.works := recorded_of_advance limit client script memory steps
  have underway : Underway dialogue.1 calls state dialogue.2.works :=
    underway_of_advance limit client script memory steps
  have settled : dialogue.2.role = .client → Sound [] state [] := by
    intro rest
    have sound := recorded.sound
    rw [Moment.works_at_rest rest] at sound
    exact sound
  refine ⟨?_, ?_, ?_⟩
  · intro listener handle told
    obtain ⟨rest, held⟩ := List.head?_eq_some_iff.mp (underway.inHand listener handle told)
    let owned : Custody := { state.custody with inHand := rest }
    have inHand : state.custody = owned.grasp handle := by
      rw [Custody.grasp, ← held]
    have counted := recorded.sound.balanced.counts handle
    rw [reaching_append, recorded.reaching_waiting underway, State.handles, reaching_append, inHand,
      reaching_perm (owned.handles_grasp handle), reaching_cons, reaching_singleton, if_pos rfl] at counted
    refine ⟨owned, inHand, ?_⟩
    rw [counted, Nat.add_assoc _ (register.unreported calls handle)]
  · intro key listener offered entry rest installed inHand affordable found other unowned alone
    have sound := settled rest
    obtain ⟨told, copied⟩ := sound.put_displaces installed inHand affordable found other
    have counted := sound.balanced.counts entry.value
    rw [List.append_nil, State.handles, reaching_append, unowned, alone] at counted
    refine ⟨told, ?_⟩
    rw [copied, Allocations.handles_copy (by rw [counted]; exact Nat.one_pos), counted, reaching_singleton, if_pos rfl]
  · intro handle listener rest installed drops unowned
    exact (settled rest).clear_finds drops installed unowned

/-- A put displaces a handle whose allocation has another entry. Its listener puts the handle back and clears the cache, and
the report inside of the report finds three handles: the one in hand, the one that the clear has still to report and the
one that the put will return. In the other dialogues nobody calls back. -/
theorem three_handles_in_a_nested_report :
    let twice : Script (protocol Nat Nat Bool) Unit Unit := do
      request (.make 7 2)
      let _ ← request (.name "shared")
      let _ ← request (.copy "shared" none)
      let _ ← request (.put 1)
      let _ ← request (.take "shared")
      let _ ← request (.put 2)
    let displacing : Script (protocol Nat Nat Bool) Unit Unit := do
      request (.listen false)
      twice
      request (.make 8 2)
      let _ ← request (.put 1)
    let once : Script (protocol Nat Nat Bool) Unit Unit := do
      request (.listen true)
      request (.make 7 2)
      let _ ← request (.put 1)
      request (.make 8 2)
    let quiet : Script (protocol Nat Nat Bool) Unit Unit := do
      request (.listen true)
      twice
    let client : Client (protocol Nat Nat Bool) Unit
      | .removed false _ => do
          request (.listen true)
          let _ ← request (.put 3)
          request .clear
      | .removed true _ => do
          let _ ← request .inspect
          let _ ← request .drop
    let opened : Moment service Unit Unit := .opening displacing () (State.ofLimit 20)
    let nested := opened.advance client 12
    let resting := (Moment.opening once () (State.ofLimit 20) : Moment service Unit Unit).advance client 4
    let filled := (Moment.opening quiet () (State.ofLimit 20) : Moment service Unit Unit).advance client 7
    nested.1.getLast? = some (.asked (.removed true ⟨0, 2⟩)) ∧
    (∃ owned : Custody, nested.2.state.custody = owned.grasp ⟨0, 2⟩ ∧
      nested.2.state.allocations.handles ⟨0, 2⟩ = 1 + reaching ⟨0, 2⟩ owned.handles + 0 + 1 + 1) ∧
    (start (.put 1) resting.2.state).2.allocations.handles ⟨0, 2⟩ = 2 ∧
    Finds client ⟨.client, .call .clear .done, .bottom, (), filled.2.state⟩ ⟨0, 2⟩ [2, 1]
      fun last => ∃ memory' state', last = ⟨.client, .done (), .bottom, memory', state'⟩ := by
  intro twice displacing once quiet client opened nested resting filled
  obtain ⟨seen, _, _⟩ := listener_sees_every_handle 20 client displacing () 12
  obtain ⟨_, displaced, _⟩ := listener_sees_every_handle 20 client once () 4
  obtain ⟨_, _, cleared⟩ := listener_sees_every_handle 20 client quiet () 7
  have told : nested.1.getLast? = some (.asked (.removed true ⟨0, 2⟩)) := by cbv
  refine ⟨told, ?_, ?_, ?_⟩
  · have resident : reaching ⟨0, 2⟩ (values nested.2.state.store.entries) = 0 := by cbv
    have unreported : (registerOf nested.1).unreported (opened.occasions client 12) ⟨0, 2⟩ = 1 := by cbv
    have returning : (registerOf nested.1).returning (opened.occasions client 12) ⟨0, 2⟩ = 1 := by cbv
    obtain ⟨owned, inHand, counted⟩ := seen true ⟨0, 2⟩ told
    rw [resident, unreported, returning] at counted
    exact ⟨owned, inHand, counted⟩
  · have found : resting.2.state.store.entries.find? (·.key == 1) = some ⟨1, ⟨0, 2⟩, 2⟩ := by cbv
    exact (displaced 1 true ⟨1, 2⟩ _ (by cbv) (by cbv) (by cbv) (by cbv) found (by cbv) (by cbv) (by cbv)).2
  · have two : reaching ⟨0, 2⟩ (values filled.2.state.store.entries) = 2 := by cbv
    have drops : ∀ handle, Drops true (client (.removed true handle)) :=
      fun _ => .look trivial fun _ => .drop fun _ => .done ()
    rw [← show (List.range' 1 2).reverse = [2, 1] from rfl, ← two]
    exact cleared ⟨0, 2⟩ true (by cbv) (by cbv) drops (by cbv) .done ()

end Shared

end MemoryBudget
