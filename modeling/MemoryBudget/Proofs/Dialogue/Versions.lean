import MemoryBudget.Proofs.Dialogue.History

/-!
# Versions of a service

A service may be given other states while its calls, its queries and its works stay the same. If each start of a call
and each answer to a query does from the view of a state what the service does from the state, no client can tell
the two apart: what is said is the same at every step, whether or not the client calls back.
-/

set_option autoImplicit false

namespace MemoryBudget

variable {P : Protocol} {σ τ φ α : Type}

structure Service.Version (service : Service P σ) (τ : Type) where
  start : (request : P.Call) → τ → Progress (service.Work request) (P.Reply request) × τ
  resume : {request : P.Call} → (work : service.Work request) → P.Answer (service.query work) → τ →
    Progress (service.Work request) (P.Reply request) × τ
  advances : ∀ {request : P.Call} (work : service.Work request) (answer : P.Answer (service.query work))
    (state : τ) (later : service.Work request) (state' : τ), resume work answer state = (.waiting later, state') →
      service.phase later < service.phase work ∨
        (service.phase later = service.phase work ∧ service.backlog later < service.backlog work)

namespace Service

variable (service : Service P σ) (attendant : Attendant P σ φ) {request : P.Call} (work : service.Work request)
  (state : σ) (memory : φ)

theorem finish_of_replied {reply : P.Reply request} {state' : σ}
    (progressed : service.resume work (attendant.answer (service.query work) state memory).1
      (attendant.answer (service.query work) state memory).2.1 = (.replied reply, state')) :
    service.finish attendant work state memory =
      (reply, state', (attendant.answer (service.query work) state memory).2.2) := by
  rw [finish]
  split
  · rename_i progressed'
    rw [progressed] at progressed'
    cases progressed'
    rfl
  · rename_i progressed'
    rw [progressed] at progressed'
    cases progressed'

theorem finish_of_waiting {later : service.Work request} {state' : σ}
    (progressed : service.resume work (attendant.answer (service.query work) state memory).1
      (attendant.answer (service.query work) state memory).2.1 = (.waiting later, state')) :
    service.finish attendant work state memory =
      service.finish attendant later state' (attendant.answer (service.query work) state memory).2.2 := by
  rw [finish]
  split
  · rename_i progressed'
    rw [progressed] at progressed'
    cases progressed'
  · rename_i progressed'
    rw [progressed] at progressed'
    cases progressed'
    rfl

theorem perform_of_replied {reply : P.Reply request} {state' : σ}
    (started : service.start request state = (.replied reply, state')) :
    service.perform attendant request state memory = (reply, state', memory) := by
  rw [perform, started]

theorem perform_of_waiting {state' : σ} (started : service.start request state = (.waiting work, state')) :
    service.perform attendant request state memory = service.finish attendant work state' memory := by
  rw [perform, started]

theorem conclude_eq_finish : service.conclude attendant work state memory =
    service.finish attendant work state memory := by
  induction work, state, memory using Service.finish.induct service attendant with
  | case1 work state memory given reply state' =>
      rename_i progressed
      rw [finish_of_replied service attendant work state memory progressed, conclude]
      generalize told : service.next work _ _ = next
      obtain ⟨progressed', nearer⟩ := next
      cases progressed.symm.trans (congrArg Subtype.val told)
      rfl
  | case2 work state memory given later state' =>
      rename_i progressed ih
      rw [finish_of_waiting service attendant work state memory progressed, conclude]
      generalize told : service.next work _ _ = next
      obtain ⟨progressed', nearer⟩ := next
      cases progressed.symm.trans (congrArg Subtype.val told)
      exact ih

theorem carry_out_eq_perform : service.carryOut attendant request state memory =
    service.perform attendant request state memory := by
  rw [carryOut, perform]
  split
  · rfl
  · rw [conclude_eq_finish]

end Service

namespace Service.Version

variable {service : Service P σ}

def toService (version : service.Version τ) : Service P τ where
  Work := service.Work
  query := service.query
  start := version.start
  resume := version.resume
  phase := service.phase
  backlog := service.backlog
  advances := version.advances

/-- From the view of a state that is in order, everything goes on as from the state, which stays in order. -/
structure Mirrors (version : service.Version τ) (view : σ → τ) (inOrder : σ → Prop) : Prop where
  start : ∀ request state, inOrder state →
    version.start request (view state) =
      ((service.start request state).1, view (service.start request state).2) ∧
        inOrder (service.start request state).2
  resume : ∀ {request} (work : service.Work request) answer state, inOrder state →
    version.resume work answer (view state) =
      ((service.resume work answer state).1, view (service.resume work answer state).2) ∧
        inOrder (service.resume work answer state).2

end Service.Version

variable {service : Service P σ}

theorem Moment.state_of_ended {client : Client P φ} {moment : Moment service φ α} {ending : Ending σ φ α}
    (ended : moment.step client = .ended ending) : ending.state = moment.state := by
  obtain ⟨role, script, stack, memory, state⟩ := moment
  cases script with
  | consult next => cases ended
  | remember memory next => cases ended
  | call request next => cases ended
  | done outcome =>
      cases stack with
      | bottom =>
          cases ended
          rfl
      | suspended work next below => cases ended

def Stack.restate (version : service.Version τ) {role : Role P} :
    Stack service φ α role → Stack version.toService φ α role
  | .bottom => .bottom
  | .suspended work next below => .suspended (show version.toService.Work _ from work) next (below.restate version)

def Moment.restate (version : service.Version τ) (view : σ → τ) (moment : Moment service φ α) :
    Moment version.toService φ α where
  role := moment.role
  script := moment.script
  stack := moment.stack.restate version
  memory := moment.memory
  state := view moment.state

def Step.restate (version : service.Version τ) (view : σ → τ) : Step service φ α → Step version.toService φ α
  | .moved said later => .moved said (later.restate version view)
  | .ended ending => .ended { ending with state := view ending.state }

namespace Service.Version.Mirrors

variable {version : service.Version τ} {view : σ → τ} {inOrder : σ → Prop}

theorem proceed (version : service.Version τ) (client : Client P φ) {request : P.Call} {role : Role P}
    (next : P.Reply request → Script P φ (role.Outcome α)) (below : Stack service φ α role) (memory : φ)
    {progressed : Progress (service.Work request) (P.Reply request) × σ}
    {progressed' : Progress (service.Work request) (P.Reply request) × τ}
    (same : progressed' = (progressed.1, view progressed.2)) :
    Moment.proceed client next (below.restate version) memory progressed' =
      ((Moment.proceed client next below memory progressed).1,
        (Moment.proceed client next below memory progressed).2.restate version view) := by
  cases same
  obtain ⟨progress, state⟩ := progressed
  cases progress with
  | replied reply => rfl
  | waiting work => rfl

theorem step (mirrors : version.Mirrors view inOrder) (client : Client P φ) (moment : Moment service φ α)
    (holds : inOrder moment.state) :
    (moment.restate version view).step client = (moment.step client).restate version view := by
  obtain ⟨role, script, stack, memory, state⟩ := moment
  cases script with
  | consult next => rfl
  | remember memory next => rfl
  | call request next =>
      have proceeded := proceed version client next stack memory (mirrors.start request state holds).1
      exact congrArg (fun outcome => Step.moved [Utterance.called request, outcome.1] outcome.2) proceeded
  | done outcome =>
      cases stack with
      | bottom => rfl
      | suspended work next below =>
          have proceeded := proceed version client next below memory (mirrors.resume work outcome state holds).1
          exact congrArg (fun reached => Step.moved
            [Utterance.answered (service.query work) outcome, reached.1] reached.2) proceeded

theorem stays (mirrors : version.Mirrors view inOrder) {client : Client P φ} {first last : Moment service φ α}
    {said : List (Utterance P)} (leads : first.Leads client said last) (holds : inOrder first.state) :
    inOrder last.state := by
  apply leads.preserves (fun _ state _ => inOrder state) holds
  · intro _ state _ request holds
    exact (mirrors.start request state holds).2
  · intro _ state _ request work answer holds
    exact (mirrors.resume work answer state holds).2

/-- Step by step, the same is said and the same moment is reached. -/
theorem advance (mirrors : version.Mirrors view inOrder) (client : Client P φ) (steps : Nat)
    (moment : Moment service φ α) (holds : inOrder moment.state) :
    (moment.restate version view).advance client steps =
      ((moment.advance client steps).1, (moment.advance client steps).2.restate version view) := by
  induction steps generalizing moment with
  | zero => rfl
  | succ steps ih =>
      rw [Moment.advance, Moment.advance, mirrors.step client moment holds]
      cases moved : moment.step client with
      | ended ending => rfl
      | moved said later =>
          have reached := ih later (mirrors.stays (Moment.leads_of_step moved) holds)
          simp only [Step.restate, reached]

/-- A dialogue ends in the state of its last moment. -/
theorem ending_in_order (mirrors : version.Mirrors view inOrder) {client : Client P φ} (patience : Nat)
    {moment : Moment service φ α} {ending : Ending σ φ α} (holds : inOrder moment.state)
    (ended : moment.run client patience = some ending) : inOrder ending.state := by
  induction patience generalizing moment with
  | zero => cases ended
  | succ patience ih =>
      rw [Moment.run] at ended
      cases stepped : moment.step client with
      | moved said later =>
          rw [stepped] at ended
          exact ih (mirrors.stays (Moment.leads_of_step stepped) holds) ended
      | ended ending' =>
          rw [stepped] at ended
          cases ended
          rw [Moment.state_of_ended stepped]
          exact holds

theorem run (mirrors : version.Mirrors view inOrder) (client : Client P φ) (patience : Nat)
    (moment : Moment service φ α) (holds : inOrder moment.state) :
    (moment.restate version view).run client patience =
      (moment.run client patience).map fun ending => { ending with state := view ending.state } := by
  induction patience generalizing moment with
  | zero => rfl
  | succ patience ih =>
      rw [Moment.run, Moment.run, mirrors.step client moment holds]
      cases moved : moment.step client with
      | ended ending => rfl
      | moved said later =>
          exact ih later (mirrors.stays (Moment.leads_of_step moved) holds)

/-! ## Attended calls -/

/-- A call that is attended by somebody who takes no interest in the state ends in the same way. -/
theorem finish (mirrors : version.Mirrors view inOrder) (answer : (query : P.Query) → φ → P.Answer query × φ)
    {request : P.Call} (work : service.Work request) (state : σ) (memory : φ) (holds : inOrder state) :
    version.toService.finish (.aloof answer) work (view state) memory =
      ((service.finish (.aloof answer) work state memory).1,
        view (service.finish (.aloof answer) work state memory).2.1,
        (service.finish (.aloof answer) work state memory).2.2) ∧
      inOrder (service.finish (.aloof answer) work state memory).2.1 := by
  induction work, state, memory using Service.finish.induct service (.aloof answer) with
  | case1 work state memory answered reply state' progressed =>
      obtain ⟨same, kept⟩ := mirrors.resume work answered.1 state holds
      have progressed' : service.resume work answered.1 state = (.replied reply, state') := progressed
      rw [progressed'] at same kept
      rw [finish_of_replied version.toService (.aloof answer) work (view state) memory same,
        finish_of_replied service (.aloof answer) work state memory progressed']
      exact ⟨rfl, kept⟩
  | case2 work state memory answered later state' progressed ih =>
      obtain ⟨same, kept⟩ := mirrors.resume work answered.1 state holds
      have progressed' : service.resume work answered.1 state = (.waiting later, state') := progressed
      rw [progressed'] at same kept
      rw [finish_of_waiting version.toService (.aloof answer) work (view state) memory same,
        finish_of_waiting service (.aloof answer) work state memory progressed']
      exact ih kept

theorem perform (mirrors : version.Mirrors view inOrder) (answer : (query : P.Query) → φ → P.Answer query × φ)
    (request : P.Call) (state : σ) (memory : φ) (holds : inOrder state) :
    version.toService.perform (.aloof answer) request (view state) memory =
      ((service.perform (.aloof answer) request state memory).1,
        view (service.perform (.aloof answer) request state memory).2.1,
        (service.perform (.aloof answer) request state memory).2.2) ∧
      inOrder (service.perform (.aloof answer) request state memory).2.1 := by
  obtain ⟨same, kept⟩ := mirrors.start request state holds
  cases started : service.start request state with
  | mk progress state' =>
      rw [started] at same kept
      cases progress with
      | replied reply =>
          rw [perform_of_replied version.toService (.aloof answer) (view state) memory same,
            perform_of_replied service (.aloof answer) state memory started]
          exact ⟨rfl, kept⟩
      | waiting work =>
          rw [perform_of_waiting version.toService (.aloof answer) work (view state) memory same,
            perform_of_waiting service (.aloof answer) work state memory started]
          exact mirrors.finish answer work state' memory kept

theorem attend (mirrors : version.Mirrors view inOrder) (answer : (query : P.Query) → φ → P.Answer query × φ)
    (script : Script P φ α) (memory : φ) (state : σ) (holds : inOrder state) :
    version.toService.attend (.aloof answer) script memory (view state) =
      ((service.attend (.aloof answer) script memory state).1,
        (service.attend (.aloof answer) script memory state).2.1,
        view (service.attend (.aloof answer) script memory state).2.2) ∧
      inOrder (service.attend (.aloof answer) script memory state).2.2 := by
  induction script generalizing memory state with
  | done result => exact ⟨rfl, holds⟩
  | consult next ih => exact ih memory memory state holds
  | remember fresh next ih => exact ih fresh state holds
  | call request next ih =>
      obtain ⟨same, kept⟩ := mirrors.perform answer request state memory holds
      rw [Service.attend, Service.attend, same]
      exact ih _ _ _ kept

end Service.Version.Mirrors

end MemoryBudget
