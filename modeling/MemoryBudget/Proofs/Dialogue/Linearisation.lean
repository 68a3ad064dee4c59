import MemoryBudget.Proofs.Dialogue.Executions
import MemoryBudget.Proofs.Dialogue.History

/-!
# Dialogues are executed call by call

A service implements an engine if each of its calls is one transaction of the engine, and the queries around it are
asked in the order in which the engine asks them. Whatever a client calls back for, a dialogue with the service is
then the recursive execution by the engine: it ends if and only if the execution ends, in the same way, and the same
is said.
-/

set_option autoImplicit false

namespace MemoryBudget

variable {P : Protocol} {σ φ α : Type}

/-! ## Services that implement an engine -/

namespace Service

variable (service : Service P σ)

/-- All that is left to do of a call that has progressed is what is left when its transaction is done. -/
inductive Owes {request : P.Call} :
    Progress (service.Work request) (P.Reply request) → Aftermath P (P.Reply request) → Prop where
  | replied (reply : P.Reply request) : Owes (.replied reply) ⟨[], .known reply⟩
  | asking (work : service.Work request) (use : P.Answer (service.query work) → P.Reply request)
      (closes : ∀ answer state, service.resume work answer state = (.replied (use answer), state)) :
      Owes (.waiting work) ⟨[], .asked (service.query work) use⟩
  | reporting (work : service.Work request) {rest : List P.Query} {reply : Wanted P (P.Reply request)}
      {progress : Progress (service.Work request) (P.Reply request)}
      (goesOn : ∀ answer state, service.resume work answer state = (progress, state))
      (later : Owes progress ⟨rest, reply⟩) : Owes (.waiting work) ⟨service.query work :: rest, reply⟩

inductive Begins {request : P.Call} (state : σ) : Progress (service.Work request) (P.Reply request) × σ →
    Wanted P (Transaction P σ (P.Reply request)) → Prop where
  | transacting (transaction : Transaction P σ (P.Reply request))
      {progress : Progress (service.Work request) (P.Reply request)}
      (owes : service.Owes progress (transaction state).1) :
      Begins state (progress, (transaction state).2) (.known transaction)
  | asking (work : service.Work request)
      (use : P.Answer (service.query work) → Transaction P σ (P.Reply request))
      (transacts : ∀ answer state', ∃ progress, service.resume work answer state' = (progress, (use answer state').2) ∧
        service.Owes progress (use answer state').1) :
      Begins state (.waiting work, state) (.asked (service.query work) use)

def Implements (engine : Engine P σ) : Prop :=
  ∀ request state, service.Begins state (service.start request state) (engine.transaction request)

end Service

theorem Service.begins_of_known {service : Service P σ} {request : P.Call} {state : σ}
    {started : Progress (service.Work request) (P.Reply request) × σ}
    {transaction : Transaction P σ (P.Reply request)} (owes : service.Owes started.1 (transaction state).1)
    (left : started.2 = (transaction state).2) : service.Begins state started (.known transaction) := by
  obtain ⟨progress, state'⟩ := started
  cases left
  exact .transacting transaction owes

/-! ## What is executed happens in a dialogue -/

namespace Act

@[simp] theorem spoken_nil : spoken ([] : List (Act P σ)) = [] := rfl

@[simp] theorem spoken_said (utterance : Utterance P) (acts : List (Act P σ)) :
    spoken (.said utterance :: acts) = utterance :: spoken acts := rfl

@[simp] theorem spoken_changed {request : P.Call} (transaction : Transaction P σ (P.Reply request))
    (acts : List (Act P σ)) : spoken (.changed transaction :: acts) = spoken acts := rfl

@[simp] theorem spoken_append (acts more : List (Act P σ)) : spoken (acts ++ more) = spoken acts ++ spoken more :=
  List.filterMap_append

end Act

section Leading

open Engine Act Moment

variable {service : Service P σ} {client : Client P φ} {ask : (query : P.Query) → Execution P σ φ (P.Answer query)}

/-- Whatever is asked in this way is answered by the script for the query, on top of any calls in progress. -/
def Speaks (service : Service P σ) (α : Type) (client : Client P φ)
    (ask : (query : P.Query) → Execution P σ φ (P.Answer query)) : Prop :=
  ∀ query memory state answered, ask query memory state = some answered →
    ∀ stack : Stack service φ α (.answering query),
      Leads client ⟨.answering query, client query, stack, memory, state⟩ (spoken answered.acts)
        ⟨.answering query, .done answered.outcome, stack, answered.memory, answered.state⟩

variable {request : P.Call} {role : Role P} {memory : φ} {state : σ}

/-- A query that is asked and answered, and how the call goes on. -/
theorem Speaks.leads_to_resume (speaks : Speaks service α client ask) {work : service.Work request}
    (next : P.Reply request → Script P φ (role.Outcome α)) (below : Stack service φ α role)
    {answered : Course P σ φ (P.Answer (service.query work))}
    (went : inquire ask (service.query work) memory state = some answered)
    {progressed : Progress (service.Work request) (P.Reply request) × σ}
    (resumed : service.resume work answered.outcome answered.state = progressed) :
    ∃ more, spoken answered.acts = .asked (service.query work) :: more ∧
      Leads client (proceed client next below memory (.waiting work, state)).2
        (more ++ [(proceed client next below answered.memory progressed).1])
        (proceed client next below answered.memory progressed).2 := by
  obtain ⟨inner, asked, rfl⟩ := inquire_eq_some.mp went
  subst resumed
  refine ⟨spoken inner.acts ++ [.answered (service.query work) inner.outcome], by simp, ?_⟩
  rw [List.append_assoc]
  exact (speaks _ _ _ _ asked (.suspended work next below)).step rfl

theorem Service.Owes.leads (speaks : Speaks service α client ask)
    {progress : Progress (service.Work request) (P.Reply request)} {aftermath : Aftermath P (P.Reply request)}
    (owes : service.Owes progress aftermath) {settled : Course P σ φ (P.Reply request)}
    (went : settle ask request aftermath memory state = some settled)
    (next : P.Reply request → Script P φ (role.Outcome α)) (below : Stack service φ α role) :
    ∃ more, spoken settled.acts = (proceed client next below memory (progress, state)).1 :: more ∧
      Leads client (proceed client next below memory (progress, state)).2 more
        ⟨role, next settled.outcome, below, settled.memory, settled.state⟩ := by
  induction owes generalizing memory state settled with
  | replied reply =>
      cases went
      exact ⟨[], rfl, .here⟩
  | asking work use closes =>
      obtain ⟨answered, asked, rfl⟩ := settle_asked.mp went
      obtain ⟨more, heard, leads⟩ := speaks.leads_to_resume next below asked (closes _ _)
      exact ⟨_, by rw [spoken_append, heard]; rfl, leads⟩
  | @reporting work rest reply progress goesOn _ ih =>
      obtain ⟨answered, later, asked, settled', rfl⟩ := settle_report.mp went
      obtain ⟨more, heard, leads⟩ := speaks.leads_to_resume next below asked (goesOn _ _)
      obtain ⟨last, heard', leads'⟩ := ih settled'
      refine ⟨_, ?_, leads.trans leads'⟩
      rw [spoken_append, heard, heard']
      simp [proceed]

theorem leads_of_perform {engine : Engine P σ} (implements : service.Implements engine)
    (speaks : Speaks service α client ask) {course : Course P σ φ (P.Reply request)}
    (went : engine.perform ask request memory state = some course)
    (next : P.Reply request → Script P φ (role.Outcome α)) (stack : Stack service φ α role) :
    Leads client ⟨role, .call request next, stack, memory, state⟩ (spoken course.acts)
      ⟨role, next course.outcome, stack, course.memory, course.state⟩ := by
  obtain ⟨supplied, settled, given, went', rfl⟩ := perform_eq_some.mp went
  have begins := implements request state
  have first : step client ⟨role, .call request next, stack, memory, state⟩ =
    .moved [.called request, (proceed client next stack memory (service.start request state)).1]
      (proceed client next stack memory (service.start request state)).2 := rfl
  generalize service.start request state = started at begins first
  generalize engine.transaction request = wanted at begins given
  cases begins with
  | transacting transaction owes =>
      cases given
      obtain ⟨more, heard, leads⟩ := owes.leads speaks went' next stack
      have whole := (leads_of_step first).trans leads
      simpa [heard] using whole
  | asking work use transacts =>
      obtain ⟨answered, asked, rfl⟩ := supply_asked.mp given
      obtain ⟨progress, resumed, owes⟩ := transacts answered.outcome answered.state
      obtain ⟨more, heard, leads⟩ := speaks.leads_to_resume next stack asked resumed
      obtain ⟨last, heard', leads'⟩ := owes.leads speaks went' next stack
      have whole := ((leads_of_step first).trans leads).trans leads'
      simpa [heard, heard', proceed] using whole

theorem leads_of_execute {engine : Engine P σ} (implements : service.Implements engine)
    (speaks : Speaks service α client ask) (script : Script P φ (role.Outcome α)) {memory : φ} {state : σ}
    {course : Course P σ φ (role.Outcome α)} (went : engine.execute ask script memory state = some course)
    (stack : Stack service φ α role) :
    Leads client ⟨role, script, stack, memory, state⟩ (spoken course.acts)
      ⟨role, .done course.outcome, stack, course.memory, course.state⟩ := by
  induction script generalizing memory state course with
  | done outcome =>
      cases went
      exact .here
  | consult next ih => exact leads_of_silence rfl (ih memory went)
  | remember memory' next ih => exact leads_of_silence rfl (ih went)
  | call request next ih =>
      obtain ⟨performed, rest, went', executed, rfl⟩ := Execution.bind_eq_some.mp went
      rw [spoken_append]
      exact (leads_of_perform implements speaks went' next stack).trans (ih _ executed)

theorem speaks_answer {engine : Engine P σ} (implements : service.Implements engine) (depth : Nat) :
    Speaks service α client (engine.answer client depth) := by
  induction depth with
  | zero =>
      intro query memory state answered asked
      cases asked
  | succ depth ih =>
      intro query memory state answered asked stack
      exact leads_of_execute implements ih (show Script P φ ((Role.answering query).Outcome α) from client query) asked
        stack

end Leading

/-! ## What happens in a dialogue is executed -/

section Running

open Engine Moment

variable {service : Service P σ} {client : Client P φ} {engine : Engine P σ}

/-- Within this patience, a script in a dialogue that ends is executed to its end, and the dialogue then goes on with
some of the patience left. No query is nested deeper than the patience. -/
def Executes (engine : Engine P σ) (service : Service P σ) (client : Client P φ) (α : Type) (patience : Nat) : Prop :=
  ∀ (role : Role P) (script : Script P φ (role.Outcome α)) (stack : Stack service φ α role) (memory : φ) (state : σ)
    (ending : Ending σ φ α), Moment.run client patience ⟨role, script, stack, memory, state⟩ = some ending →
      ∀ depth, patience ≤ depth → ∃ course fewer, fewer ≤ patience ∧
        engine.execute (engine.answer client depth) script memory state = some course ∧
        Moment.run client fewer ⟨role, .done course.outcome, stack, course.memory, course.state⟩ = some ending

variable {request : P.Call} {role : Role P} {memory : φ} {state : σ} {ending : Ending σ φ α} {patience depth : Nat}

/-- A query that is asked within the patience is answered, and the call goes on. -/
theorem inquires_of_run (executes : ∀ fewer ≤ patience, Executes engine service client α fewer)
    (deep : patience ≤ depth) {work : service.Work request}
    (next : P.Reply request → Script P φ (role.Outcome α)) (below : Stack service φ α role)
    (ended : Moment.run client patience (proceed client next below memory (.waiting work, state)).2 = some ending) :
    ∃ answered fewer, fewer ≤ patience ∧
      inquire (engine.answer client (depth + 1)) (service.query work) memory state = some answered ∧
      Moment.run client fewer (proceed client next below answered.memory
        (service.resume work answered.outcome answered.state)).2 = some ending := by
  obtain ⟨answered, left, within, asked, concluded⟩ :=
    executes patience (Nat.le_refl _) (.answering (service.query work)) (client (service.query work))
      (.suspended work next below) memory state ending ended depth deep
  cases left with
  | zero => cases concluded
  | succ fewer => exact ⟨_, fewer, by omega, inquire_eq_some.mpr ⟨answered, asked, rfl⟩, concluded⟩

theorem Service.Owes.settles (executes : ∀ fewer ≤ patience, Executes engine service client α fewer)
    (deep : patience ≤ depth) {progress : Progress (service.Work request) (P.Reply request)}
    {aftermath : Aftermath P (P.Reply request)} (owes : service.Owes progress aftermath)
    (next : P.Reply request → Script P φ (role.Outcome α)) (below : Stack service φ α role)
    (ended : Moment.run client patience (proceed client next below memory (progress, state)).2 = some ending) :
    ∃ settled fewer, fewer ≤ patience ∧
      settle (engine.answer client (depth + 1)) request aftermath memory state = some settled ∧
      Moment.run client fewer ⟨role, next settled.outcome, below, settled.memory, settled.state⟩ = some ending := by
  induction owes generalizing memory state patience with
  | replied reply => exact ⟨_, patience, Nat.le_refl _, settle_known, ended⟩
  | asking work use closes =>
      obtain ⟨answered, fewer, within, asked, ended'⟩ := inquires_of_run executes deep next below ended
      rw [closes] at ended'
      exact ⟨_, fewer, within, settle_asked.mpr ⟨answered, asked, rfl⟩, ended'⟩
  | reporting work goesOn _ ih =>
      obtain ⟨answered, fewer, within, asked, ended'⟩ := inquires_of_run executes deep next below ended
      rw [goesOn] at ended'
      obtain ⟨settled, left, within', went, ended''⟩ :=
        ih (fun few below => executes few (by omega)) (by omega) ended'
      exact ⟨_, left, by omega, settle_report.mpr ⟨answered, settled, asked, went, rfl⟩, ended''⟩

theorem performs_of_run (implements : service.Implements engine)
    (executes : ∀ fewer ≤ patience, Executes engine service client α fewer) (deep : patience ≤ depth)
    (next : P.Reply request → Script P φ (role.Outcome α)) (stack : Stack service φ α role)
    (ended : Moment.run client patience (proceed client next stack memory (service.start request state)).2 =
      some ending) :
    ∃ course fewer, fewer ≤ patience ∧
      engine.perform (engine.answer client (depth + 1)) request memory state = some course ∧
      Moment.run client fewer ⟨role, next course.outcome, stack, course.memory, course.state⟩ = some ending := by
  suffices whole : ∃ supplied settled fewer, fewer ≤ patience ∧
      supply (engine.answer client (depth + 1)) (engine.transaction request) memory state = some supplied ∧
      settle (engine.answer client (depth + 1)) request (supplied.outcome supplied.state).1 supplied.memory
        (supplied.outcome supplied.state).2 = some settled ∧
      Moment.run client fewer ⟨role, next settled.outcome, stack, settled.memory, settled.state⟩ = some ending by
    obtain ⟨supplied, settled, fewer, within, given, went, ended'⟩ := whole
    exact ⟨_, fewer, within, perform_eq_some.mpr ⟨supplied, settled, given, went, rfl⟩, ended'⟩
  have begins := implements request state
  generalize service.start request state = started at begins ended
  generalize engine.transaction request = wanted at begins
  cases begins with
  | transacting transaction owes =>
      obtain ⟨settled, fewer, within, went, ended'⟩ := owes.settles executes deep next stack ended
      exact ⟨⟨transaction, memory, state, []⟩, settled, fewer, within, rfl, went, ended'⟩
  | asking work use transacts =>
      obtain ⟨answered, fewer, within, asked, ended'⟩ := inquires_of_run executes deep next stack ended
      obtain ⟨progress, resumed, owes⟩ := transacts answered.outcome answered.state
      rw [resumed] at ended'
      obtain ⟨settled, left, within', went, ended''⟩ :=
        owes.settles (fun few below => executes few (by omega)) (by omega : fewer ≤ depth) next stack ended'
      exact ⟨_, settled, left, by omega, supply_asked.mpr ⟨answered, asked, rfl⟩, went, ended''⟩

theorem executes_of_run (implements : service.Implements engine) (patience : Nat) :
    Executes engine service client α patience := by
  induction patience using Nat.strongRecOn with
  | ind patience ih =>
      intro role script stack memory state ending ended depth deep
      cases script with
      | done outcome => exact ⟨⟨outcome, memory, state, []⟩, patience, Nat.le_refl _, rfl, ended⟩
      | consult next =>
          cases patience with
          | zero => cases ended
          | succ patience =>
              obtain ⟨course, fewer, within, went, ended'⟩ :=
                ih patience (Nat.lt_succ_self _) role (next memory) stack memory state ending ended depth (by omega)
              exact ⟨course, fewer, by omega, went, ended'⟩
      | remember memory' next =>
          cases patience with
          | zero => cases ended
          | succ patience =>
              obtain ⟨course, fewer, within, went, ended'⟩ :=
                ih patience (Nat.lt_succ_self _) role next stack memory' state ending ended depth (by omega)
              exact ⟨course, fewer, by omega, went, ended'⟩
      | call request next =>
          cases patience with
          | zero => cases ended
          | succ patience =>
              obtain ⟨depth, rfl⟩ : ∃ less, depth = less + 1 := ⟨depth - 1, by omega⟩
              obtain ⟨performed, left, within, went, ended'⟩ :=
                performs_of_run implements (fun few below => ih few (by omega)) (by omega : patience ≤ depth) next stack
                  ended
              obtain ⟨course, fewer, within', executed, ended''⟩ :=
                ih left (by omega) role (next performed.outcome) stack performed.memory performed.state ending ended'
                  (depth + 1) (by omega)
              exact ⟨_, fewer, by omega, Execution.bind_eq_some.mpr ⟨performed, course, went, executed, rfl⟩, ended''⟩

end Running

/-! ## Linearisation -/

section Linearising

open Moment

variable {service : Service P σ} {engine : Engine P σ} {client : Client P φ}

theorem Moment.Leads.runs {first last : Moment service φ α} {said : List (Utterance P)}
    (leads : first.Leads client said last) {patience : Nat} {ending : Ending σ φ α}
    (ended : last.run client patience = some ending) : ∃ patience, first.run client patience = some ending := by
  induction leads generalizing patience with
  | here => exact ⟨patience, ended⟩
  | @step said more moment later _ moved ih =>
      have ran : Moment.run client (patience + 1) moment = some ending := by
        rw [Moment.run, moved]
        exact ended
      exact ih ran

theorem leads_of_converse (implements : service.Implements engine) {depth : Nat} {script : Script P φ α} {memory : φ}
    {state : σ} {course : Course P σ φ α}
    (executed : engine.converse client depth script memory state = some course) :
    (opening script memory state : Moment service φ α).Leads client (Act.spoken course.acts)
      ⟨.client, .done course.outcome, .bottom, course.memory, course.state⟩ :=
  @leads_of_execute P σ φ α service client (engine.answer client depth) .client engine implements
    (speaks_answer implements depth) script memory state course executed .bottom

/-- A dialogue with the service is an execution by the engine, in which every call is one transaction. -/
structure Service.Linearises (service : Service P σ) (engine : Engine P σ) : Prop where
  /-- One comes to an end if and only if the other does, and then with the same result, memory and state. -/
  ends : ∀ {φ α : Type} (client : Client P φ) (script : Script P φ α) (memory : φ) (state : σ)
    (ending : Ending σ φ α),
    (∃ patience, service.converse client patience script memory state = some ending) ↔
      ∃ depth acts, engine.converse client depth script memory state =
        some ⟨ending.result, ending.memory, ending.state, acts⟩
  /-- The same is said in the same order, and so every call has the same reply. -/
  speaks : ∀ {φ α : Type} (client : Client P φ) (depth : Nat) (script : Script P φ α) (memory : φ) (state : σ)
    (course : Course P σ φ α), engine.converse client depth script memory state = some course →
    (Moment.opening script memory state : Moment service φ α).Leads client (Act.spoken course.acts)
      ⟨.client, .done course.outcome, .bottom, course.memory, course.state⟩
  /-- The state at the end is the one after the transactions, one after the other. -/
  replays : ∀ {φ α : Type} (client : Client P φ) (depth : Nat) (script : Script P φ α),
    (engine.converse client depth script).Replays
  /-- At every depth, a call is its transaction, then all that is reported, one after the other, then the reply. -/
  unfolds : ∀ {φ : Type} (client : Client P φ) (depth : Nat) (request : P.Call) (memory : φ) (state : σ)
    (course : Course P σ φ (P.Reply request)),
    engine.perform (engine.answer client depth) request memory state = some course →
      Unfolds engine request state course.acts course.outcome

theorem Service.Implements.linearises (implements : service.Implements engine) : service.Linearises engine where
  ends client script memory state ending := by
    constructor
    · rintro ⟨patience, ended⟩
      obtain ⟨course, fewer, _, executed, ended'⟩ :=
        executes_of_run implements patience .client script .bottom memory state ending ended patience (Nat.le_refl _)
      cases fewer with
      | zero => cases ended'
      | succ fewer =>
          cases ended'
          exact ⟨patience, course.acts, executed⟩
    · rintro ⟨depth, acts, executed⟩
      exact (leads_of_converse implements executed).runs (show Moment.run client 1 _ = some ending from rfl)
  speaks client depth script memory state course executed := leads_of_converse implements executed
  replays client depth script := replays_execute (replays_answer depth) script
  unfolds client depth request memory state course went := unfolds_of_perform (replays_answer depth) went

end Linearising

end MemoryBudget
