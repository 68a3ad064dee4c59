import MemoryBudget.Dialogue.Service

/-!
# Dialogues that call back

A client that calls back from inside a query starts a call while others are in progress. A `Moment` holds all
of that as a value: the script that is running, the calls that wait for it, the memory of the client and the
state of the service. A dialogue is a sequence of moments, so whatever is to be said about the middle of a
call is said about a moment.
-/

set_option autoImplicit false

namespace MemoryBudget

/-- On whose behalf a script runs: the client itself, or the answer to a query. -/
inductive Role (P : Protocol) where
  | client
  | answering (query : P.Query)

def Role.Outcome {P : Protocol} (α : Type) : Role P → Type
  | .client => α
  | .answering query => P.Answer query

/-- The calls in progress, innermost first. Each waits for an answer, and a script waits for its reply. -/
inductive Stack {P : Protocol} {σ : Type} (service : Service P σ) (φ α : Type) : Role P → Type where
  | bottom : Stack service φ α .client
  | suspended {request : P.Call} (work : service.Work request) {role : Role P}
      (next : P.Reply request → Script P φ (role.Outcome α)) (below : Stack service φ α role) :
      Stack service φ α (.answering (service.query work))

/-- Everything about a dialogue between two steps. -/
structure Moment {P : Protocol} {σ : Type} (service : Service P σ) (φ α : Type) where
  role : Role P
  script : Script P φ (role.Outcome α)
  stack : Stack service φ α role
  memory : φ
  state : σ

inductive Utterance (P : Protocol) where
  | called (request : P.Call)
  | replied (request : P.Call) (reply : P.Reply request)
  | asked (query : P.Query)
  | answered (query : P.Query) (answer : P.Answer query)

structure Ending (σ φ α : Type) where
  result : α
  memory : φ
  state : σ

inductive Step {P : Protocol} {σ : Type} (service : Service P σ) (φ α : Type) where
  | moved (said : List (Utterance P)) (later : Moment service φ α)
  | ended (ending : Ending σ φ α)

namespace Moment

variable {P : Protocol} {σ φ α : Type} {service : Service P σ}

def opening (script : Script P φ α) (memory : φ) (state : σ) : Moment service φ α :=
  { role := .client, script := script, stack := .bottom, memory := memory, state := state }

def proceed (client : Client P φ) {request : P.Call} {role : Role P}
    (next : P.Reply request → Script P φ (role.Outcome α)) (below : Stack service φ α role) (memory : φ)
    (progressed : Progress (service.Work request) (P.Reply request) × σ) :
    Utterance P × Moment service φ α :=
  match progressed with
  | (.replied reply, state) =>
      (.replied request reply,
        { role := role, script := next reply, stack := below, memory := memory, state := state })
  | (.waiting work, state) =>
      (.asked (service.query work),
        { role := .answering (service.query work), script := client (service.query work)
          stack := .suspended work next below, memory := memory, state := state })

def conclude (client : Client P φ) (memory : φ) (state : σ) {role : Role P}
    (stack : Stack service φ α role) (outcome : role.Outcome α) : Step service φ α :=
  match stack with
  | .bottom => .ended ⟨outcome, memory, state⟩
  | .suspended work next below =>
      let (said, later) := proceed client next below memory (service.resume work outcome state)
      .moved [.answered (service.query work) outcome, said] later

def step (client : Client P φ) : Moment service φ α → Step service φ α
  | ⟨role, .consult next, stack, memory, state⟩ => .moved [] ⟨role, next memory, stack, memory, state⟩
  | ⟨role, .remember memory next, stack, _, state⟩ => .moved [] ⟨role, next, stack, memory, state⟩
  | ⟨_, .call request next, stack, memory, state⟩ =>
      let (said, later) := proceed client next stack memory (service.start request state)
      .moved [.called request, said] later
  | ⟨_, .done outcome, stack, memory, state⟩ => conclude client memory state stack outcome

def run (client : Client P φ) : Nat → Moment service φ α → Option (Ending σ φ α)
  | 0, _ => none
  | patience + 1, moment =>
      match moment.step client with
      | .moved _ later => later.run client patience
      | .ended ending => some ending

end Moment

def Service.converse {P : Protocol} {σ φ α : Type} (service : Service P σ) (client : Client P φ)
    (patience : Nat) (script : Script P φ α) (memory : φ) (state : σ) : Option (Ending σ φ α) :=
  (Moment.opening script memory state : Moment service φ α).run client patience

end MemoryBudget
