import MemoryBudget.Proofs.Dialogue.Linearisation
import MemoryBudget.Proofs.Dialogue.Turns
import MemoryBudget.Proofs.Dialogue.Versions

/-!
# Attended calls as transactions

A client that never calls back is an attendant, and an attended call of a service that implements an engine is one
transaction of the engine with the answers around it. What the attendant is asked, in which order, and what it then
remembers can be read off the transaction.
-/

set_option autoImplicit false

namespace MemoryBudget

variable {P : Protocol} {σ φ ρ : Type}

def Wanted.supplied (answer : (query : P.Query) → φ → P.Answer query × φ) : Wanted P ρ → φ → ρ × φ
  | .known value, memory => (value, memory)
  | .asked query use, memory => (use (answer query memory).1, (answer query memory).2)

def Engine.attend (engine : Engine P σ) (answer : (query : P.Query) → φ → P.Answer query × φ) (request : P.Call)
    (state : σ) (memory : φ) : P.Reply request × σ × φ :=
  let (transaction, memory) := (engine.transaction request).supplied answer memory
  let (aftermath, state) := transaction state
  let (reply, memory) := aftermath.reply.supplied answer (remembered answer memory aftermath.reports)
  (reply, state, memory)

namespace Service

variable {service : Service P σ} {answer : (query : P.Query) → φ → P.Answer query × φ} {request : P.Call}

def closed (service : Service P σ) (attendant : Attendant P σ φ) {request : P.Call} (memory : φ) :
    Progress (service.Work request) (P.Reply request) × σ → P.Reply request × σ × φ
  | (.replied reply, state) => (reply, state, memory)
  | (.waiting work, state) => service.finish attendant work state memory

theorem perform_eq_closed (attendant : Attendant P σ φ) (state : σ) (memory : φ) :
    service.perform attendant request state memory = service.closed attendant memory (service.start request state) := by
  rw [perform]
  cases service.start request state with
  | mk progress state' => cases progress <;> rfl

theorem finish_aloof (work : service.Work request) (state : σ) (memory : φ) :
    service.finish (.aloof answer) work state memory =
      service.closed (.aloof answer) (answer (service.query work) memory).2
        (service.resume work (answer (service.query work) memory).1 state) := by
  cases resumed : service.resume work (answer (service.query work) memory).1 state with
  | mk progress state' =>
      cases progress with
      | replied reply => exact finish_of_replied service (.aloof answer) work state memory resumed
      | waiting later => exact finish_of_waiting service (.aloof answer) work state memory resumed

theorem Owes.closes {progress : Progress (service.Work request) (P.Reply request)}
    {aftermath : Aftermath P (P.Reply request)} (owes : service.Owes progress aftermath) (state : σ) (memory : φ) :
    service.closed (.aloof answer) memory (progress, state) =
      ((aftermath.reply.supplied answer (remembered answer memory aftermath.reports)).1, state,
        (aftermath.reply.supplied answer (remembered answer memory aftermath.reports)).2) := by
  induction owes generalizing memory with
  | replied reply => rfl
  | asking work use closes =>
      rw [closed, finish_aloof, closes]
      rfl
  | reporting work goesOn _ ih =>
      rw [closed, finish_aloof, goesOn, ih]
      rfl

/-- An attended call is its transaction, with what is asked before it and what is told after it. -/
theorem Implements.perform_eq {engine : Engine P σ} (implements : service.Implements engine)
    (answer : (query : P.Query) → φ → P.Answer query × φ) (request : P.Call) (state : σ) (memory : φ) :
    service.perform (.aloof answer) request state memory = engine.attend answer request state memory := by
  have begins := implements request state
  rw [perform_eq_closed, Engine.attend]
  generalize service.start request state = started at begins
  generalize engine.transaction request = wanted at begins
  cases begins with
  | transacting transaction owes => exact owes.closes _ memory
  | asking work use transacts =>
      obtain ⟨progress, resumed, owes⟩ := transacts (answer (service.query work) memory).1 state
      rw [closed, finish_aloof, resumed]
      exact owes.closes _ _

end Service

/-! ## Visits -/

structure Visit (P : Protocol) (σ φ : Type) (request : P.Call) where
  reply : P.Reply request
  state : σ
  memory : φ
  asked : List P.Query

namespace Service

def visit (service : Service P σ) (answer : (query : P.Query) → φ → P.Answer query × φ) (request : P.Call) (state : σ)
    (memory : φ) : Visit P σ φ request :=
  let performed := service.perform (.noting answer) request state (memory, [])
  { reply := performed.1, state := performed.2.1, memory := performed.2.2.1, asked := performed.2.2.2 }

variable {service : Service P σ} {engine : Engine P σ} (implements : service.Implements engine)
  (answer : (query : P.Query) → φ → P.Answer query × φ) (request : P.Call)

include implements

/-- A call whose transaction is known from the start asks nothing but its reports. -/
theorem Implements.visit_of_known {transaction : Transaction P σ (P.Reply request)}
    (known : engine.transaction request = .known transaction) {state : σ} {reply : P.Reply request}
    (settled : (transaction state).1.reply = .known reply) (memory : φ) :
    service.visit answer request state memory =
      { reply := reply
        state := (transaction state).2
        memory := remembered answer memory (transaction state).1.reports
        asked := (transaction state).1.reports } := by
  rw [visit, Attendant.noting, implements.perform_eq, Engine.attend, known]
  simp only [Wanted.supplied, settled, remembered_noting, List.nil_append]

/-- Else the query that the transaction depends on comes first. -/
theorem Implements.visit_of_asked {query : P.Query} {use : P.Answer query → Transaction P σ (P.Reply request)}
    (asked : engine.transaction request = .asked query use) {state : σ} {memory : φ} {reply : P.Reply request}
    (settled : (use (answer query memory).1 state).1.reply = .known reply) :
    service.visit answer request state memory =
      { reply := reply
        state := (use (answer query memory).1 state).2
        memory := remembered answer (answer query memory).2 (use (answer query memory).1 state).1.reports
        asked := query :: (use (answer query memory).1 state).1.reports } := by
  rw [visit, Attendant.noting, implements.perform_eq, Engine.attend, asked]
  simp only [Wanted.supplied, settled, remembered_noting, List.nil_append, List.singleton_append]

/-- Writing down what is asked changes nothing else. -/
theorem Implements.perform_eq_visit (state : σ) (memory : φ) :
    service.perform (.aloof answer) request state memory =
      let visit := service.visit answer request state memory
      (visit.reply, visit.state, visit.memory) := by
  rw [visit, Attendant.noting, implements.perform_eq, implements.perform_eq, Engine.attend, Engine.attend]
  cases engine.transaction request with
  | known transaction =>
      simp only [Wanted.supplied, remembered_noting]
      cases (transaction state).1.reply <;> rfl
  | asked query use =>
      simp only [Wanted.supplied, remembered_noting]
      cases (use (answer query memory).1 state).1.reply <;> rfl

end Service

/-! ## Calls one after the other -/

def Script.each (before : List (Exchange P)) : List P.Call → Script P φ (List (Exchange P))
  | [] => .done before
  | request :: rest => .call request fun reply => each (before ++ [⟨request, reply⟩]) rest

/-- The calls have the replies of their turns, and leave the state of the last one. -/
theorem Service.Implements.attend_each {service : Service P σ} {engine : Engine P σ}
    (implements : service.Implements engine) (answer : (query : P.Query) → φ → P.Answer query × φ)
    (calls : List P.Call) (before : List (Exchange P)) (memory : φ) (state : σ) :
    let turns := service.turns answer calls memory state
    let attended := service.attend (.aloof answer) (Script.each before calls) memory state
    attended.1 = before ++ turns.map Turn.toExchange ∧ attended.2.2 = (turns.map Turn.state).getLastD state := by
  induction calls generalizing before memory state with
  | nil => exact ⟨(List.append_nil _).symm, rfl⟩
  | cons request rest ih =>
      rw [Script.each, Service.attend, implements.perform_eq_visit]
      obtain ⟨exchanged, last⟩ := ih (before ++ [⟨request, (service.visit answer request state memory).reply⟩])
        (service.visit answer request state memory).memory (service.visit answer request state memory).state
      rw [List.append_assoc, List.singleton_append] at exchanged
      refine ⟨exchanged, last.trans ?_⟩
      show _ = (_ :: List.map Turn.state _).getLastD state
      rw [List.getLastD_cons]
      rfl

/-! ## Clients that answer at once -/

def promptly (answer : (query : P.Query) → P.Answer query) (query : P.Query) (memory : φ) : P.Answer query × φ :=
  (answer query, memory)

section Prompt

open Moment

variable {α : Type} {service : Service P σ} {client : Client P φ} {answer : (query : P.Query) → P.Answer query}

variable (prompt : ∀ query, client query = .done (answer query)) {request : P.Call} {role : Role P}
  (next : P.Reply request → Script P φ (role.Outcome α)) (below : Stack service φ α role) (memory : φ) (state : σ)

include prompt

theorem leads_of_prompt (work : service.Work request) :
    ∃ said, Moment.Leads client
      ⟨.answering (service.query work), client (service.query work), .suspended work next below, memory, state⟩ said
      (proceed client next below memory (service.resume work (answer (service.query work)) state)).2 := by
  have answers := congrArg (fun script : Script P φ (P.Answer (service.query work)) => Moment.step client
    ⟨.answering (service.query work), script, .suspended work next below, memory, state⟩) (prompt _)
  exact ⟨_, leads_of_step (answers.trans (step_of_answer next work _))⟩

/-- Query after query is answered, until the call has its reply. -/
theorem leads_of_finish (work : service.Work request) :
    let settled := service.finish (.aloof (promptly answer)) work state memory
    ∃ said, Moment.Leads client
      ⟨.answering (service.query work), client (service.query work), .suspended work next below, memory, state⟩ said
      ⟨role, next settled.1, below, settled.2.2, settled.2.1⟩ := by
  -- One answer after the other, as `finish` gives them.
  induction work, state, memory using Service.finish.induct service (.aloof (promptly answer)) with
  | case1 work state memory answered reply state' progressed =>
      rw [Service.finish_of_replied service (.aloof (promptly answer)) work state memory progressed]
      obtain ⟨said, leads⟩ := leads_of_prompt prompt next below memory state work
      rw [show service.resume work (answer (service.query work)) state = (.replied reply, state') from progressed]
        at leads
      exact ⟨said, leads⟩
  | case2 work state memory answered later state' progressed ih =>
      rw [Service.finish_of_waiting service (.aloof (promptly answer)) work state memory progressed]
      obtain ⟨said, leads⟩ := leads_of_prompt prompt next below memory state work
      rw [show service.resume work (answer (service.query work)) state = (.waiting later, state') from progressed]
        at leads
      obtain ⟨more, replied⟩ := ih
      exact ⟨said ++ more, leads.trans replied⟩

theorem leads_of_attended_call :
    let settled := service.perform (.aloof (promptly answer)) request state memory
    ∃ said, Moment.Leads client ⟨role, .call request next, below, memory, state⟩ said
      ⟨role, next settled.1, below, settled.2.2, settled.2.1⟩ := by
  have called : Moment.Leads client ⟨role, .call request next, below, memory, state⟩ _ _ :=
    leads_of_step (step_of_call next)
  rw [Service.perform]
  cases started : service.start request state with
  | mk progress state' =>
      rw [started] at called
      cases progress with
      | replied reply => exact ⟨_, called⟩
      | waiting work =>
          obtain ⟨said, replied⟩ := leads_of_finish prompt next below memory state' work
          exact ⟨_, called.trans replied⟩

theorem leads_to_end (script : Script P φ α) :
    let attended := service.attend (.aloof (promptly answer)) script memory state
    ∃ said, (opening script memory state : Moment service φ α).Leads client said
      ⟨.client, .done attended.1, .bottom, attended.2.1, attended.2.2⟩ := by
  induction script generalizing memory state with
  | done result => exact ⟨[], .here⟩
  | consult next ih =>
      obtain ⟨said, leads⟩ := ih memory memory state
      exact ⟨said, leads_of_silence rfl leads⟩
  | remember fresh next ih =>
      obtain ⟨said, leads⟩ := ih fresh state
      exact ⟨said, leads_of_silence rfl leads⟩
  | call request next ih =>
      obtain ⟨said, replied⟩ := leads_of_attended_call prompt next .bottom memory state
      obtain ⟨more, ended⟩ := ih _ _ _
      exact ⟨said ++ more, replied.trans ended⟩

/-- A dialogue with a client that answers at once comes to its end, and to what an attended script comes to. -/
theorem converse_of_prompt (script : Script P φ α) :
    let attended := service.attend (.aloof (promptly answer)) script memory state
    ∃ patience, service.converse client patience script memory state =
      some ⟨attended.1, attended.2.1, attended.2.2⟩ := by
  intro attended
  obtain ⟨said, leads⟩ := leads_to_end prompt memory state script
  exact leads.runs (show Moment.run client 1 _ = some ⟨attended.1, attended.2.1, attended.2.2⟩ from rfl)

end Prompt

end MemoryBudget
