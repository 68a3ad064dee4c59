import MemoryBudget.Dialogue.Machine
import Mathlib.Tactic.Common

/-!
# Histories of dialogues

What can be reached from a moment, and what has been said on the way. Scripts and memories decide which calls are
made, but what a call does depends on the state of the service and on the work in progress alone. A property of
these and of what has been said holds throughout a dialogue, however deeply its calls are nested, once every start
of a call and every answer to a query preserve it.
-/

set_option autoImplicit false

namespace MemoryBudget

variable {P : Protocol} {σ φ α : Type}

def Service.announce (service : Service P σ) (request : P.Call) :
    Progress (service.Work request) (P.Reply request) → Utterance P
  | .replied reply => .replied request reply
  | .waiting work => .asked (service.query work)

structure Service.Pending (service : Service P σ) where
  request : P.Call
  work : service.Work request

def Service.outstanding (service : Service P σ) {request : P.Call} :
    Progress (service.Work request) (P.Reply request) → List service.Pending
  | .replied _ => []
  | .waiting work => [⟨request, work⟩]

def Stack.works {service : Service P σ} {role : Role P} : Stack service φ α role → List service.Pending
  | .bottom => []
  | .suspended work _ below => ⟨_, work⟩ :: below.works

namespace Moment

variable {service : Service P σ}

def works (moment : Moment service φ α) : List service.Pending := moment.stack.works

/-- The call that the next step starts, if it starts one, with the state that the call finds. -/
def occasion (moment : Moment service φ α) : List (P.Call × σ) :=
  match moment.script with
  | .call request _ => [(request, moment.state)]
  | _ => []

/-- Takes `steps` steps, or fewer if the dialogue ends before, and tells what was said. -/
def advance (client : Client P φ) : Nat → Moment service φ α → List (Utterance P) × Moment service φ α
  | 0, moment => ([], moment)
  | steps + 1, moment =>
      match moment.step client with
      | .moved said later =>
          let (more, last) := later.advance client steps
          (said ++ more, last)
      | .ended _ => ([], moment)

def occasions (client : Client P φ) : Nat → Moment service φ α → List (P.Call × σ)
  | 0, _ => []
  | steps + 1, moment =>
      match moment.step client with
      | .moved _ later => moment.occasion ++ later.occasions client steps
      | .ended _ => []

/-- The later moment is reached from the first one, and this was said in between. -/
inductive Leads (client : Client P φ) (first : Moment service φ α) :
    List (Utterance P) → Moment service φ α → Prop where
  | here : Leads client first [] first
  | step {said more : List (Utterance P)} {moment later : Moment service φ α}
      (leads : Leads client first said moment) (moved : moment.step client = .moved more later) :
      Leads client first (said ++ more) later

theorem Leads.trans {client : Client P φ} {first moment last : Moment service φ α}
    {said more : List (Utterance P)} (earlier : first.Leads client said moment)
    (later : moment.Leads client more last) : first.Leads client (said ++ more) last := by
  induction later with
  | here =>
      rw [List.append_nil]
      exact earlier
  | step _ moved ih =>
      rw [← List.append_assoc]
      exact ih.step moved

theorem leads_of_step {client : Client P φ} {moment later : Moment service φ α}
    {said : List (Utterance P)} (moved : moment.step client = .moved said later) :
    moment.Leads client said later :=
  Leads.here.step moved

/-- A step without a word changes nothing about what is said. -/
theorem leads_of_silence {client : Client P φ} {moment later last : Moment service φ α}
    {said : List (Utterance P)} (moved : moment.step client = .moved [] later)
    (leads : later.Leads client said last) : moment.Leads client said last :=
  (leads_of_step moved).trans leads

theorem leads_advance (client : Client P φ) (steps : Nat) (first : Moment service φ α) :
    first.Leads client (first.advance client steps).1 (first.advance client steps).2 := by
  induction steps generalizing first with
  | zero => exact .here
  | succ steps ih =>
      rw [advance]
      cases moved : first.step client with
      | moved said later => exact (leads_of_step moved).trans (ih later)
      | ended ending => exact .here

/-! ## One step -/

theorem proceed_works (client : Client P φ) {request : P.Call} {role : Role P}
    (next : P.Reply request → Script P φ (role.Outcome α)) (below : Stack service φ α role) (memory : φ)
    (progressed : Progress (service.Work request) (P.Reply request) × σ) :
    (proceed client next below memory progressed).1 = service.announce request progressed.1 ∧
      (proceed client next below memory progressed).2.state = progressed.2 ∧
      (proceed client next below memory progressed).2.works =
        service.outstanding progressed.1 ++ below.works := by
  obtain ⟨progress, state⟩ := progressed
  cases progress with
  | replied reply => exact ⟨rfl, rfl, rfl⟩
  | waiting work => exact ⟨rfl, rfl, rfl⟩

/-- A step says nothing and leaves the service alone, or it starts a call, or it answers the query of the
innermost call in progress. -/
theorem step_cases {client : Client P φ} {moment later : Moment service φ α} {said : List (Utterance P)}
    (moved : moment.step client = .moved said later) :
    (said = [] ∧ moment.occasion = [] ∧ later.state = moment.state ∧ later.works = moment.works) ∨
    (∃ request, said = [.called request, service.announce request (service.start request moment.state).1] ∧
      moment.occasion = [(request, moment.state)] ∧
      later.state = (service.start request moment.state).2 ∧
      later.works = service.outstanding (service.start request moment.state).1 ++ moment.works) ∨
    (∃ request work answer rest, moment.works = ⟨request, work⟩ :: rest ∧
      said = [.answered (service.query work) answer,
        service.announce request (service.resume work answer moment.state).1] ∧ moment.occasion = [] ∧
      later.state = (service.resume work answer moment.state).2 ∧
      later.works = service.outstanding (service.resume work answer moment.state).1 ++ rest) := by
  obtain ⟨role, script, stack, memory, state⟩ := moment
  cases script with
  | consult next =>
      cases moved
      exact Or.inl ⟨rfl, rfl, rfl, rfl⟩
  | remember memory next =>
      cases moved
      exact Or.inl ⟨rfl, rfl, rfl, rfl⟩
  | call request next =>
      cases moved
      obtain ⟨announced, state', works⟩ := proceed_works client next stack memory (service.start request state)
      exact Or.inr (Or.inl
        ⟨request, congrArg (fun heard => [.called request, heard]) announced, rfl, state', works⟩)
  | done outcome =>
      cases stack with
      | bottom => cases moved
      | suspended work next below =>
          cases moved
          obtain ⟨announced, state', works⟩ :=
            proceed_works client next below memory (service.resume work outcome state)
          exact Or.inr (Or.inr ⟨_, work, outcome, below.works, rfl,
            congrArg (fun heard => [.answered (service.query work) outcome, heard]) announced, rfl, state', works⟩)

section Calls

variable {client : Client P φ} {request : P.Call} {role : Role P} {below : Stack service φ α role} {memory : φ}
  {state state' : σ}

theorem step_of_replied {next : P.Reply request → Script P φ (role.Outcome α)} {reply : P.Reply request}
    (replied : service.start request state = (.replied reply, state')) :
    Moment.step client ⟨role, .call request next, below, memory, state⟩ =
      .moved [.called request, .replied request reply] ⟨role, next reply, below, memory, state'⟩ := by
  rw [step, replied]
  rfl

theorem step_of_call (next : P.Reply request → Script P φ (role.Outcome α)) :
    Moment.step client ⟨role, .call request next, below, memory, state⟩ =
      .moved [.called request, service.announce request (service.start request state).1]
        (proceed client next below memory (service.start request state)).2 :=
  congrArg (fun heard => Step.moved [.called request, heard] _)
    (proceed_works client next below memory (service.start request state)).1

theorem step_of_answer (next : P.Reply request → Script P φ (role.Outcome α)) (work : service.Work request)
    (answer : P.Answer (service.query work)) :
    Moment.step client ⟨.answering (service.query work), .done answer, .suspended work next below, memory, state⟩ =
      .moved [.answered (service.query work) answer, service.announce request (service.resume work answer state).1]
        (proceed client next below memory (service.resume work answer state)).2 :=
  congrArg (fun heard => Step.moved [.answered (service.query work) answer, heard] _)
    (proceed_works client next below memory (service.resume work answer state)).1

end Calls

/-! ## Whole dialogues -/

/-- What every start of a call and every answer to a query preserves, holds at every moment. -/
theorem Leads.preserves {client : Client P φ} {first last : Moment service φ α} {said : List (Utterance P)}
    (leads : first.Leads client said last)
    (holds : List (Utterance P) → σ → List service.Pending → Prop)
    (initially : holds [] first.state first.works)
    (started : ∀ said state works request, holds said state works →
      holds (said ++ [.called request, service.announce request (service.start request state).1])
        (service.start request state).2 (service.outstanding (service.start request state).1 ++ works))
    (resumed : ∀ said state works request (work : service.Work request) answer,
      holds said state (⟨request, work⟩ :: works) →
      holds (said ++ [.answered (service.query work) answer,
          service.announce request (service.resume work answer state).1])
        (service.resume work answer state).2
        (service.outstanding (service.resume work answer state).1 ++ works)) :
    holds said last.state last.works := by
  induction leads with
  | here => exact initially
  | @step said more moment later leads moved ih =>
      rcases step_cases moved with ⟨rfl, _, state, works⟩ | ⟨request, rfl, _, state, works⟩ |
        ⟨request, work, answer, rest, before, rfl, _, state, works⟩
      · rw [List.append_nil, state, works]
        exact ih
      · rw [state, works]
        exact started _ _ _ request ih
      · rw [state, works]
        rw [before] at ih
        exact resumed _ _ _ request work answer ih

/-- The same for what may also depend on the calls that were started and the states that they found. -/
theorem advance_preserves (client : Client P φ) (steps : Nat) (first : Moment service φ α)
    (holds : List (Utterance P) → List (P.Call × σ) → σ → List service.Pending → Prop)
    (started : ∀ said calls state works request, holds said calls state works →
      holds (said ++ [.called request, service.announce request (service.start request state).1])
        (calls ++ [(request, state)]) (service.start request state).2
        (service.outstanding (service.start request state).1 ++ works))
    (resumed : ∀ said calls state works request (work : service.Work request) answer,
      holds said calls state (⟨request, work⟩ :: works) →
      holds (said ++ [.answered (service.query work) answer,
          service.announce request (service.resume work answer state).1])
        calls (service.resume work answer state).2
        (service.outstanding (service.resume work answer state).1 ++ works))
    {said : List (Utterance P)} {calls : List (P.Call × σ)} (before : holds said calls first.state first.works) :
    holds (said ++ (first.advance client steps).1) (calls ++ first.occasions client steps)
      (first.advance client steps).2.state (first.advance client steps).2.works := by
  induction steps generalizing first said calls with
  | zero =>
      rw [advance, occasions, List.append_nil, List.append_nil]
      exact before
  | succ steps ih =>
      rw [advance, occasions]
      cases moved : first.step client with
      | ended ending =>
          rw [List.append_nil, List.append_nil]
          exact before
      | moved more later =>
          -- What holds after the first step is what the other steps start from.
          have after : holds (said ++ more) (calls ++ first.occasion) later.state later.works := by
            rcases step_cases moved with ⟨rfl, silent, state, works⟩ | ⟨request, rfl, called, state, works⟩ |
              ⟨request, work, answer, rest, waiting, rfl, silent, state, works⟩
            · rw [silent, state, works, List.append_nil, List.append_nil]
              exact before
            · rw [called, state, works]
              exact started _ _ _ _ request before
            · rw [silent, state, works, List.append_nil]
              rw [waiting] at before
              exact resumed _ _ _ _ request work answer before
          have last := ih later after
          rw [List.append_assoc, List.append_assoc] at last
          exact last

/-- Between calls no call is in progress. -/
theorem works_at_rest {moment : Moment service φ α} (rest : moment.role = .client) : moment.works = [] := by
  obtain ⟨role, script, stack, memory, state⟩ := moment
  cases rest
  cases stack
  rfl

end Moment

/-! ## Reachable states -/

namespace Service

/-- Some client meets the last state, at some moment of a dialogue that begins with the first one. -/
def Reaches (service : Service P σ) (first last : σ) : Prop :=
  ∃ (φ α : Type) (client : Client P φ) (script : Script P φ α) (memory : φ) (steps : Nat),
    ((Moment.opening script memory first : Moment service φ α).advance client steps).2.state = last

theorem Reaches.preserves {service : Service P σ} {first last : σ} (reaches : service.Reaches first last)
    (holds : σ → Prop) (initially : holds first)
    (started : ∀ request state, holds state → holds (service.start request state).2)
    (resumed : ∀ {request} (work : service.Work request) answer state, holds state →
      holds (service.resume work answer state).2) : holds last := by
  obtain ⟨φ, α, client, script, memory, steps, rfl⟩ := reaches
  have leads := Moment.leads_advance client steps (Moment.opening script memory first : Moment service φ α)
  apply leads.preserves fun _ state _ => holds state
  · exact initially
  · intro _ state _ request before
    exact started request state before
  · intro _ state _ _ work answer before
    exact resumed work answer state before

end Service

end MemoryBudget
