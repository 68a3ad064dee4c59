import MemoryBudget.Proofs.Dialogue.History
import MemoryBudget.Proofs.Shared.Counts
import MemoryBudget.Proofs.Shared.Departures

/-!
# Steps of caches of shared values

What the start of a call and the answer to a report do: to whom the handles that leave are reported, and that every
handle is counted wherever it goes. All that holds throughout the dialogues with such a cache is read off these cases.
-/

set_option autoImplicit false

namespace MemoryBudget

namespace Shared

open RecencyList Lru Cache

variable {κ ν ℓ : Type}

/-! ## Reports -/

/-- The handles that a call still has to report while it waits, and the one that it is about to return. -/
def Work.held {request : Call κ ν ℓ} (work : Work request) : List Handle :=
  work.pending ++ work.returning.toList

def held {request : Call κ ν ℓ} {ρ : Type} : Progress (Work request) ρ → List Handle
  | .replied _ => []
  | .waiting work => work.held

def due {request : Call κ ν ℓ} {ρ : Type} : Progress (Work request) ρ → List Handle
  | .replied _ => []
  | .waiting work => work.reported :: work.pending

variable [BEq κ] [Hashable κ]

def waiting (works : List (service (κ := κ) (ν := ν) (ℓ := ℓ)).Pending) : List Handle :=
  works.flatMap fun pending => Work.held pending.work

theorem waiting_of_progress {request : Call κ ν ℓ}
    (progress : Progress (Work request) ((protocol κ ν ℓ).Reply request)) :
    waiting (service.outstanding progress) = held progress := by
  cases progress with
  | replied reply => rfl
  | waiting work => exact List.append_nil _

theorem waiting_outstanding {request : Call κ ν ℓ} {progress : Progress (Work request) ((protocol κ ν ℓ).Reply request)}
    {works : List (service (κ := κ) (ν := ν) (ℓ := ℓ)).Pending} :
    waiting (service.outstanding progress ++ works) = held progress ++ waiting works := by
  cases progress with
  | replied reply => rfl
  | waiting work => exact List.flatMap_cons

structure Reports {request : Call κ ν ℓ} (state : State κ ν ℓ) (returning : Option Handle) (queue : List Handle)
    (outcome : Progress (Work request) ((protocol κ ν ℓ).Reply request) × State κ ν ℓ) : Prop where
  store : outcome.2.store = state.store
  listener : outcome.2.listener = state.listener
  /-- With a listener all of them are reported, and without one they are dropped. -/
  queued : due outcome.1 = if state.listener.isSome then queue else []
  recipient : ∀ work, outcome.1 = .waiting work → state.listener = some work.listener
  promised : ∀ work, outcome.1 = .waiting work → work.returning = returning
  inHand : ∀ work, outcome.1 = .waiting work → outcome.2.custody = state.custody.grasp work.reported
  balanced : ∀ dead elsewhere, Balanced dead state (queue ++ (returning.toList ++ elsewhere)) →
    Balanced dead outcome.2 (held outcome.1 ++ elsewhere)

/-- The installed listener is told about the next handle. -/
theorem report_of_listener {request : Call κ ν ℓ} (reply : (protocol κ ν ℓ).Reply request) (returning : Option Handle)
    (handle : Handle) (pending : List Handle) {state : State κ ν ℓ} {listener : ℓ}
    (installed : state.listener = some listener) :
    report reply returning (handle :: pending) state =
      (.waiting ⟨listener, handle, pending, returning, reply⟩, state.grasp handle) := by
  rw [report, installed]

theorem report_reports {request : Call κ ν ℓ} (reply : (protocol κ ν ℓ).Reply request) (returning : Option Handle)
    (queue : List Handle) (state : State κ ν ℓ) :
    Reports state returning queue (report reply returning queue state) := by
  induction queue generalizing state with
  | nil =>
      cases returning with
      | none =>
          constructor
          case queued => exact (ite_self _).symm
          case balanced => exact fun dead elsewhere balanced => balanced
          all_goals first | rfl | nofun
      | some handle =>
          constructor
          case queued => exact (ite_self _).symm
          case balanced => exact fun dead elsewhere balanced => balanced.grasped
          all_goals first | rfl | nofun
  | cons handle pending ih =>
      cases installed : state.listener with
      | none =>
          have unheard : report reply returning (handle :: pending) state =
              report reply returning pending (state.countDrop handle) := by
            rw [report, installed]
          rw [unheard]
          obtain ⟨store, listener, queued, recipient, promised, inHand, balanced⟩ := ih (state.countDrop handle)
          have silent : (state.countDrop handle).listener = none := installed
          rw [silent] at listener queued recipient
          constructor
          · exact store
          · rw [listener, installed]
          · rw [queued, installed]
            rfl
          · rw [installed]
            exact recipient
          · exact promised
          · exact inHand
          · exact fun dead elsewhere counted => balanced dead elsewhere counted.dropped
      | some listener =>
          rw [report_of_listener reply returning handle pending installed]
          constructor
          · rfl
          · rfl
          · rw [installed]
            rfl
          · intro work waits
            cases waits
            exact installed
          · intro work waits
            cases waits
            rfl
          · intro work waits
            cases waits
            rfl
          · intro dead elsewhere balanced
            unfold held Work.held
            rw [List.append_assoc]
            exact balanced.grasped

/-! ## Calls -/

/-- What a cache of shared values relies on while calls have some handles. -/
structure Sound (dead : List Handle) (state : State κ ν ℓ) (elsewhere : List Handle) : Prop where
  intact : Intact state.store
  /-- Each entry costs the size that its handle carries. -/
  measured : ∀ entry ∈ state.store.entries, entry.cost = entry.value.size
  balanced : Balanced dead state elsewhere

theorem of_limit_sound (limit : UInt64) : Sound [] (State.ofLimit limit : State κ ν ℓ) [] where
  intact := of_limit_intact limit
  measured _ member := nomatch member
  balanced := ⟨fun _ => rfl, fun _ member => absurd member List.not_mem_nil⟩

variable {dead : List Handle} {state state' : State κ ν ℓ} {elsewhere : List Handle}

theorem Handled.sound (handled : Handled state state') (sound : Sound dead state elsewhere) :
    Sound dead state' elsewhere := by
  constructor
  · rw [handled.store]
    exact sound.intact
  · rw [handled.store]
    exact sound.measured
  · exact handled.balanced dead elsewhere sound.balanced

theorem Sound.listened (sound : Sound dead state elsewhere) (listener : Option ℓ) :
    Sound dead { state with listener := listener } elsewhere :=
  ⟨sound.intact, sound.measured, sound.balanced.counts, sound.balanced.dead⟩

/-- The cache may change while the handles that leave it go elsewhere. -/
theorem Sound.restocked (sound : Sound dead state elsewhere) {store : Lru κ Handle} {elsewhere' : List Handle}
    (intact : Intact store) (measured : ∀ entry ∈ store.entries, entry.cost = entry.value.size)
    (same : (values state.store.entries ++ elsewhere).Perm (values store.entries ++ elsewhere')) :
    Sound dead { state with store := store } elsewhere' :=
  ⟨intact, measured, sound.balanced.restocked same⟩

def Call.installs : Call κ ν ℓ → Option ℓ
  | .listen listener => some listener
  | _ => none

/-- How a call starts: it replies at once and nothing is to be reported, or it has a queue of handles to report. -/
inductive Starts (dead : List Handle) (state : State κ ν ℓ) (elsewhere : List Handle) : (request : Call κ ν ℓ) →
    Progress (Work request) ((protocol κ ν ℓ).Reply request) × State κ ν ℓ → Prop where
  | replies (request : Call κ ν ℓ) {state' : State κ ν ℓ} (reply : (protocol κ ν ℓ).Reply request)
      (nothing : released request state.store.entries state'.store.entries = [])
      (listener : state'.listener = request.installs.or state.listener) (sound : Sound dead state' elsewhere) :
      Starts dead state elsewhere request (.replied reply, state')
  | reports (request : Call κ ν ℓ) {state' : State κ ν ℓ} {queue : List Handle} {returning : Option Handle}
      {outcome : Progress (Work request) ((protocol κ ν ℓ).Reply request) × State κ ν ℓ}
      (reports : Reports state' returning queue outcome)
      (all : queue.Perm (released request state.store.entries state'.store.entries))
      (listener : state'.listener = state.listener) (silent : request.installs = none)
      (sound : Sound dead state' (queue ++ (returning.toList ++ elsewhere))) :
      Starts dead state elsewhere request outcome

section Outcomes

variable {request : Call κ ν ℓ} {outcome : Progress (Work request) ((protocol κ ν ℓ).Reply request) × State κ ν ℓ}

theorem Reports.sound {returning : Option Handle} {queue : List Handle} (reports : Reports state returning queue outcome)
    (sound : Sound dead state (queue ++ (returning.toList ++ elsewhere))) :
    Sound dead outcome.2 (held outcome.1 ++ elsewhere) := by
  constructor
  · rw [reports.store]
    exact sound.intact
  · rw [reports.store]
    exact sound.measured
  · exact reports.balanced dead elsewhere sound.balanced

theorem Starts.sound (starts : Starts dead state elsewhere request outcome) :
    Sound dead outcome.2 (held outcome.1 ++ elsewhere) := by
  cases starts with
  | replies reply nothing listener sound => exact sound
  | reports reports all listener silent sound => exact reports.sound sound

theorem Starts.listener (starts : Starts dead state elsewhere request outcome) :
    outcome.2.listener = request.installs.or state.listener := by
  cases starts with
  | replies reply nothing listener sound => exact listener
  | reports reports all listener silent sound =>
      rw [reports.listener, listener, silent]
      rfl

theorem Starts.recipient (starts : Starts dead state elsewhere request outcome) :
    ∀ work, outcome.1 = .waiting work → outcome.2.listener = some work.listener := by
  intro work waits
  cases starts with
  | replies reply nothing listener sound => cases waits
  | reports reports all listener silent sound =>
      rw [reports.listener]
      exact reports.recipient work waits

/-- A handle that is reported is in hand. -/
theorem Starts.inHand (starts : Starts dead state elsewhere request outcome) :
    ∀ work, outcome.1 = .waiting work → outcome.2.custody.inHand.head? = some work.reported := by
  intro work waits
  cases starts with
  | replies reply nothing listener sound => cases waits
  | reports reports all listener silent sound =>
      rw [reports.inHand work waits]
      rfl

/-- Everything that leaves because of a call is due to be reported, if there is a listener. -/
theorem Starts.due (starts : Starts dead state elsewhere request outcome) :
    (due outcome.1).Perm
      (if state.listener.isSome then released request state.store.entries outcome.2.store.entries else []) := by
  cases starts with
  | replies reply nothing listener sound =>
      rw [nothing, ite_self]
      exact List.Perm.refl _
  | reports reports all listener silent sound =>
      rw [reports.queued, reports.store, listener]
      split
      · exact all
      · exact List.Perm.refl _

end Outcomes

/-- An answer goes on with the reports. -/
theorem resume_reports {request : Call κ ν ℓ} (work : Work request) (state : State κ ν ℓ) :
    Reports state work.returning work.pending (resume work () state) :=
  report_reports work.reply work.returning work.pending state

theorem collect_evictions (entries : List (Entry κ Handle)) (state : State κ ν ℓ) :
    State.collect (evictions entries) state = (values entries, state) := by
  induction entries with
  | nil => rfl
  | cons entry rest ih =>
      have collected : State.collect (evictions (entry :: rest)) state =
          (entry.value :: (State.collect (evictions rest) state).1, (State.collect (evictions rest) state).2) := rfl
      rw [collected, ih]
      rfl

/-- A handle that is displaced is reported first, and a copy of it is counted. -/
theorem collect_displaced (entry : Entry κ Handle) (evicted : List (Entry κ Handle)) (state : State κ ν ℓ) :
    State.collect (⟨entry, .displaced⟩ :: evictions evicted) state =
      (entry.value :: values evicted, state.countCopy entry.value) := by
  have first : State.collect (⟨entry, .displaced⟩ :: evictions evicted) state =
      (entry.value :: (State.collect (evictions evicted) (state.countCopy entry.value)).1,
        (State.collect (evictions evicted) (state.countCopy entry.value)).2) := rfl
  rw [first, collect_evictions]

structure Exchanged (dead : List Handle) (state : State κ ν ℓ) (elsewhere : List Handle) (key : κ)
    (outcome : (List Handle × Option Handle) × State κ ν ℓ) : Prop where
  all : outcome.1.1.Perm (departed state.store.entries outcome.2.store.entries)
  listener : outcome.2.listener = state.listener
  sound : Sound dead outcome.2 (outcome.1.1 ++ (outcome.1.2.toList ++ elsewhere))
  /-- If anything is reported, the handle under the key is returned. -/
  returned : outcome.1.1 = [] ∨ outcome.1.2 = (state.store.meaning.find? key).map (·.value)

/-- A handle that is displaced is about to be returned, and a copy of it is reported. -/
theorem Sound.displaced {previous : Option (Entry κ Handle)} {evicted : List (Entry κ Handle)} (key : κ)
    (handle : Handle)
    (sound : Sound dead state (values evicted ++ ((previous.map (·.value)).toList ++ elsewhere))) :
    let gone := (previous.filter (·.value != handle)).toList ++ evicted
    let outcome := State.collect (displacement previous key handle ++ evictions evicted) state
    outcome.1 = values gone ∧ outcome.2.store = state.store ∧ outcome.2.listener = state.listener ∧
      Sound dead outcome.2 (values gone ++ ((previous.map (·.value)).toList ++ elsewhere)) := by
  intro gone outcome
  cases leaves : previous.filter (·.value != handle) with
  | none =>
      have collected : outcome = (values evicted, state) := by
        show State.collect (((previous.filter (·.value != handle)).toList.map _) ++ _) state = _
        rw [leaves]
        exact collect_evictions evicted state
      have all : gone = evicted := by
        show (previous.filter (·.value != handle)).toList ++ evicted = evicted
        rw [leaves]
        rfl
      rw [collected, all]
      exact ⟨rfl, rfl, rfl, sound⟩
  | some entry =>
      obtain ⟨isPrevious, _⟩ := Option.filter_eq_some_iff.mp leaves
      have collected : outcome = (entry.value :: values evicted, state.countCopy entry.value) := by
        show State.collect (((previous.filter (·.value != handle)).toList.map _) ++ _) state = _
        rw [leaves]
        exact collect_displaced { entry with key := key } evicted state
      have all : gone = entry :: evicted := by
        show (previous.filter (·.value != handle)).toList ++ evicted = entry :: evicted
        rw [leaves]
        rfl
      rw [collected, all]
      refine ⟨rfl, rfl, rfl, sound.intact, sound.measured, ?_⟩
      apply sound.balanced.copied
      apply List.mem_append_right
      apply List.mem_append_right
      apply List.mem_append_left
      rw [isPrevious]
      exact List.mem_cons_self

theorem collect_store (departures : List (Departure κ Handle)) (state : State κ ν ℓ) :
    (State.collect departures state).2.store = state.store := by
  induction departures generalizing state with
  | nil => rfl
  | cons departure rest ih =>
      obtain ⟨entry, cause⟩ := departure
      cases cause with
      | refused => exact ih (state.countDrop entry.value)
      | displaced => exact ih (state.countCopy entry.value)
      | evicted => exact ih state

/-- A put lets go of the handle in hand, and reports what leaves because of it. -/
theorem start_put {handle : Handle} {custody : Custody} (letGo : state.custody.letGo? = some (handle, custody))
    (key : κ) :
    let exchanged := { state with custody := custody }.exchange key handle
    start (.put key) state = report exchanged.1.2.isSome exchanged.1.2 exchanged.1.1 exchanged.2 := by
  rw [start, letGo]

/-- What a put of the handle in hand does to the entries does not depend on who is told. -/
theorem put_store {handle : Handle} (inHand : state.custody.inHand.head? = some handle) (key : κ) :
    (start (.put key) state).2.store = (state.store.exchange ⟨key, handle, handle.size⟩).2 := by
  obtain ⟨rest, held⟩ := List.head?_eq_some_iff.mp inHand
  have letGo : state.custody.letGo? = some (handle, { state.custody with inHand := rest }) := by
    rw [Custody.letGo?, held]
  rw [start_put letGo]
  apply (report_reports _ _ _ _).store.trans
  exact collect_store _ _

/-! ## Each call -/

variable [EquivBEq κ]

theorem Handled.starts (handled : Handled state state') (sound : Sound dead state elsewhere) (request : Call κ ν ℓ)
    (reply : (protocol κ ν ℓ).Reply request) (silent : request.installs = none) :
    Starts dead state elsewhere request (.replied reply, state') := by
  have nothing : departed state.store.entries state'.store.entries = [] := by
    rw [handled.store]
    exact departed_of_perm (List.Perm.refl _)
  apply Starts.replies
  · cases request with
    | remove key => rfl
    | _ => exact nothing
  · rw [handled.listener, silent]
    rfl
  · exact handled.sound sound

/-- The coldest entries leave and are reported. -/
theorem Sound.sheds (sound : Sound dead state elsewhere) (request : Call κ ν ℓ)
    (reply : (protocol κ ν ℓ).Reply request) {evicted : List (Entry κ Handle)} {store : Lru κ Handle}
    (sheds : Sheds state.store (evicted, store)) (silent : request.installs = none)
    (evicts : released request = departed) :
    Starts dead state elsewhere request (report reply none (values evicted) { state with store := store }) := by
  have parted : state.store.entries.Perm (evicted ++ store.entries) := by
    rw [sheds.parted]
    exact List.perm_append_comm.trans ((List.reverse_perm evicted).append_right _)
  apply Starts.reports request (report_reports reply none (values evicted) { state with store := store })
  · rw [evicts]
    exact (departed_of_evicted sound.intact.distinct_keys sheds.parted).symm
  · rfl
  · exact silent
  · apply sound.restocked sheds.intact
    · intro entry member
      exact sound.measured entry (parted.symm.subset (List.mem_append_right _ member))
    · exact values_parted parted elsewhere

/-- A copy of a resident handle comes to hand. -/
theorem Sound.fetched (sound : Sound dead state elsewhere) (key : κ) :
    Starts dead state elsewhere (.get key) (.replied (state.fetch key).1, (state.fetch key).2) := by
  have same := sound.intact.get_perm key
  have outcome := (sound.intact.get_agrees key).outcome
  have intact := (sound.intact.get_agrees key).intact
  unfold State.fetch
  generalize state.store.get key = got at same outcome intact
  obtain ⟨found, store⟩ := got
  have sound' : Sound dead { state with store := store } elsewhere := by
    apply sound.restocked intact
    · intro entry member
      exact sound.measured entry (same.subset member)
    · exact (same.symm.map _).append_right elsewhere
  have nothing : departed state.store.entries store.entries = [] := departed_of_perm same
  cases found with
  | none => exact .replies (.get key) _ nothing rfl sound'
  | some handle =>
      have resident : handle ∈ values store.entries := by
        apply (same.map _).symm.subset
        rw [RecencyList.get] at outcome
        cases isFound : state.store.meaning.find? key with
        | none =>
            rw [isFound] at outcome
            cases outcome
        | some entry =>
            rw [isFound] at outcome
            cases outcome
            exact List.mem_map_of_mem (List.mem_of_find?_eq_some isFound)
      have member : handle ∈ { state with store := store }.handles ++ elsewhere :=
        List.mem_append_left _ (List.mem_append_right _ resident)
      have balanced := (sound'.balanced.copied member handle.size).grasped
      exact .replies (.get key) _ nothing rfl ⟨sound'.intact, sound'.measured, balanced⟩

variable [LawfulHashable κ]

/-- A handle that is removed goes to the client, and nothing is reported. -/
theorem Sound.withdrawn (sound : Sound dead state elsewhere) (key : κ) :
    Starts dead state elsewhere (.remove key) (.replied (state.withdraw key).1, (state.withdraw key).2) := by
  have parted := perm_find_others sound.intact.distinct_keys key
  obtain ⟨outcome, meant, intact⟩ := sound.intact.remove_agrees key
  have entries : (state.store.remove key).2.entries = state.store.entries.filter (!·.key == key) :=
    congrArg RecencyList.entries meant
  have found : (state.store.remove key).1 = state.store.entries.find? (·.key == key) := outcome
  rw [← found, ← entries] at parted
  unfold State.withdraw
  generalize state.store.remove key = removed at parted intact
  obtain ⟨removed, store⟩ := removed
  have sound' : Sound dead { state with store := store } (values removed.toList ++ elsewhere) := by
    apply sound.restocked intact
    · intro entry member
      exact sound.measured entry (parted.symm.subset (List.mem_append_right _ member))
    · exact values_parted parted elsewhere
  cases removed with
  | none => exact .replies (.remove key) _ rfl rfl sound'
  | some entry => exact .replies (.remove key) _ rfl rfl ⟨sound'.intact, sound'.measured, sound'.balanced.grasped⟩

theorem Sound.exchanged {handle : Handle} (sound : Sound dead state (handle :: elsewhere)) (key : κ) :
    Exchanged dead state elsewhere key (state.exchange key handle) := by
  have resident := perm_find_others sound.intact.distinct_keys key
  rcases sound.intact.exchange_cases ⟨key, handle, handle.size⟩ with
    ⟨_, refused⟩ | ⟨_, evicted, store, intact, admitted, kept, fresh, parted⟩
  · have outcome : state.exchange key handle = (([], none), state.countDrop handle) := by
      rw [State.exchange, refused]
      rfl
    rw [outcome]
    constructor
    · rw [departed_of_perm]
      exact List.Perm.refl _
    · rfl
    · exact ⟨sound.intact, sound.measured, sound.balanced.dropped⟩
    · exact Or.inl rfl
  · have divided : state.store.entries.Perm (evicted ++ (state.store.meaning.find? key).toList ++ kept) := by
      apply resident.trans
      rw [show state.store.entries.filter (!·.key == key) = kept ++ evicted.reverse from parted, List.append_assoc,
        ← List.append_assoc _ kept]
      exact List.perm_append_comm.trans ((List.reverse_perm evicted).append_right _)
    have sound' : Sound dead { state with store := store }
        (values evicted ++ (((state.store.meaning.find? key).map (·.value)).toList ++ elsewhere)) := by
      apply sound.restocked intact
      · rw [fresh]
        intro entry member
        rcases List.mem_cons.mp member with rfl | stayed
        · rfl
        · exact sound.measured entry (divided.symm.subset (List.mem_append_right _ stayed))
      · have left : values (evicted ++ (state.store.meaning.find? key).toList) ++ elsewhere =
            values evicted ++ (((state.store.meaning.find? key).map (·.value)).toList ++ elsewhere) := by
          unfold values
          rw [List.map_append, List.append_assoc, Option.toList_map]
        rw [fresh, ← left]
        exact List.perm_middle.trans ((values_parted divided elsewhere).cons handle)
    obtain ⟨queue, sameStore, listener, sound''⟩ := sound'.displaced key handle
    have outcome : state.exchange key handle =
        (((State.collect (displacement (state.store.meaning.find? key) key handle ++ evictions evicted)
            { state with store := store }).1, (state.store.meaning.find? key).map (·.value)),
          (State.collect (displacement (state.store.meaning.find? key) key handle ++ evictions evicted)
            { state with store := store }).2) := by
      rw [State.exchange, admitted]
    rw [outcome]
    constructor
    · show List.Perm (State.collect _ _).1 (departed _ (State.collect _ _).2.store.entries)
      rw [queue, sameStore]
      exact (departed_of_admitted sound.intact.distinct_keys fresh parted).symm
    · exact listener
    · show Sound dead (State.collect _ _).2 ((State.collect _ _).1 ++ _)
      rw [queue]
      exact sound''
    · exact Or.inr rfl

theorem Sound.put (sound : Sound dead state elsewhere) (key : κ) :
    Starts dead state elsewhere (.put key) (start (.put key) state) := by
  rw [start]
  cases letGo : state.custody.letGo? with
  | none => exact (Handled.refl state).starts sound (.put key) false rfl
  | some taken =>
      obtain ⟨handle, custody⟩ := taken
      have sound' : Sound dead { state with custody := custody } (handle :: elsewhere) :=
        ⟨sound.intact, sound.measured, sound.balanced.taken (Custody.handles_let_go letGo)⟩
      have exchanged := sound'.exchanged key
      exact .reports (.put key) (report_reports _ _ _ _) exchanged.all exchanged.listener rfl exchanged.sound

theorem start_meets (sound : Sound dead state elsewhere) (request : Call κ ν ℓ) :
    Starts dead state elsewhere request (start request state) := by
  cases request with
  | make value size => exact (make_handled state value size).starts sound (.make value size) () rfl
  | copy name size => exact (copy_handled state name size).starts sound _ _ rfl
  | take name => exact (take_handled state name).starts sound _ _ rfl
  | name name => exact (name_handled state name).starts sound _ _ rfl
  | putAside => exact (put_aside_handled state).starts sound .putAside _ rfl
  | drop => exact (drop_handled state).starts sound .drop _ rfl
  | dropAside => exact (drop_aside_handled state).starts sound .dropAside _ rfl
  | inspect => exact (Handled.refl state).starts sound .inspect _ rfl
  | reclaim => exact (reclaim_handled state).starts sound .reclaim _ rfl
  | put key => exact sound.put key
  | get key => exact sound.fetched key
  | remove key => exact sound.withdrawn key
  | contains key => exact (Handled.refl state).starts sound (.contains key) _ rfl
  | clear => exact sound.sheds .clear () sound.intact.clear_sheds rfl rfl
  | trim pressure => exact sound.sheds (.trim pressure) () (sound.intact.pressure_sheds pressure) rfl rfl
  | rescale multiplier =>
      rw [start]
      rcases sound.intact.rescale_sheds multiplier with ⟨invalid, refused⟩ | ⟨outcome, rescaled, sheds⟩
      · rw [refused]
        exact (Handled.refl state).starts sound (.rescale multiplier) _ rfl
      · rw [rescaled]
        exact sound.sheds (.rescale multiplier) (.ok ()) sheds rfl rfl
  | usage => exact (Handled.refl state).starts sound .usage _ rfl
  | listen listener =>
      exact .replies (.listen listener) () (departed_of_perm (List.Perm.refl _)) rfl (sound.listened (some listener))

end Shared

end MemoryBudget
