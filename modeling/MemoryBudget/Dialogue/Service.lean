import MemoryBudget.Dialogue.Script

/-!
# Services

A service answers calls from its state. A call may stop with a query to the client and is then held as a piece
of `Work`, a value that shows what the call still has to do. An `Attendant` is a client that answers at once and
never calls back; a service attended by one settles every call.
-/

set_option autoImplicit false

namespace MemoryBudget

inductive Progress (ω ρ : Type) where
  | replied (reply : ρ)
  | waiting (work : ω)

structure Service (P : Protocol) (σ : Type) where
  /-- A call in progress that waits for an answer. -/
  Work : P.Call → Type
  /-- What it waits for. -/
  query : {request : P.Call} → Work request → P.Query
  start : (request : P.Call) → σ → Progress (Work request) (P.Reply request) × σ
  resume : {request : P.Call} → (work : Work request) → P.Answer (query work) → σ →
    Progress (Work request) (P.Reply request) × σ
  /-- How many phases of the call are left. -/
  phase : {request : P.Call} → Work request → Nat
  /-- How many queries are left in this phase. -/
  backlog : {request : P.Call} → Work request → Nat
  /-- Every answer brings a call nearer to its reply. -/
  advances : ∀ {request : P.Call} (work : Work request) (answer : P.Answer (query work)) (state : σ)
    (later : Work request) (state' : σ), resume work answer state = (.waiting later, state') →
      phase later < phase work ∨ (phase later = phase work ∧ backlog later < backlog work)

/-- A client that answers at once. It may look at the state of the service and act on it, but makes no call. -/
structure Attendant (P : Protocol) (σ φ : Type) where
  answer : (query : P.Query) → σ → φ → P.Answer query × σ × φ

def Attendant.aloof {P : Protocol} {σ φ : Type}
    (answer : (query : P.Query) → φ → P.Answer query × φ) : Attendant P σ φ where
  answer query state memory :=
    let (reply, memory) := answer query memory
    (reply, state, memory)

namespace Service

variable {P : Protocol} {σ φ : Type}

def finish (service : Service P σ) (attendant : Attendant P σ φ) {request : P.Call}
    (work : service.Work request) (state : σ) (memory : φ) : P.Reply request × σ × φ :=
  let answered := attendant.answer (service.query work) state memory
  match _progressed : service.resume work answered.1 answered.2.1 with
  | (.replied reply, state) => (reply, state, answered.2.2)
  | (.waiting later, state) => service.finish attendant later state answered.2.2
termination_by (service.phase work, service.backlog work)
decreasing_by
  rcases service.advances work _ _ _ _ _progressed with fewer | ⟨same, fewer⟩
  · exact Prod.Lex.left _ _ fewer
  · rw [same]
    exact Prod.Lex.right _ fewer

def perform (service : Service P σ) (attendant : Attendant P σ φ) (request : P.Call)
    (state : σ) (memory : φ) : P.Reply request × σ × φ :=
  match service.start request state with
  | (.replied reply, state) => (reply, state, memory)
  | (.waiting work, state) => service.finish attendant work state memory

def attend {α : Type} (service : Service P σ) (attendant : Attendant P σ φ) :
    Script P φ α → φ → σ → α × φ × σ
  | .done result, memory, state => (result, memory, state)
  | .consult next, memory, state => service.attend attendant (next memory) memory state
  | .remember memory next, _, state => service.attend attendant next memory state
  | .call request next, memory, state =>
      let (reply, state, memory) := service.perform attendant request state memory
      service.attend attendant (next reply) memory state

/-! ## Settling calls

A closed call of `carryOut` evaluates, which one of `perform` does not: what shows that a call ends stands beside the
progress that it is about, and is not matched on.
-/

def Nearer (service : Service P σ) {request : P.Call} (work : service.Work request)
    (progressed : Progress (service.Work request) (P.Reply request) × σ) : Prop :=
  ∀ later, progressed.1 = .waiting later → service.phase later < service.phase work ∨
    (service.phase later = service.phase work ∧ service.backlog later < service.backlog work)

def next (service : Service P σ) {request : P.Call} (work : service.Work request)
    (answer : P.Answer (service.query work)) (state : σ) :
    { progressed : Progress (service.Work request) (P.Reply request) × σ // service.Nearer work progressed } :=
  ⟨service.resume work answer state, fun later waits =>
    service.advances work answer state later (service.resume work answer state).2 (Prod.ext waits rfl)⟩

/-- Answers query after query, as `finish` does. -/
def conclude (service : Service P σ) (attendant : Attendant P σ φ) {request : P.Call}
    (work : service.Work request) (state : σ) (memory : φ) : P.Reply request × σ × φ :=
  let answered := attendant.answer (service.query work) state memory
  match service.next work answered.1 answered.2.1 with
  | ⟨(.replied reply, state), _⟩ => (reply, state, answered.2.2)
  | ⟨(.waiting later, state), _nearer⟩ => service.conclude attendant later state answered.2.2
termination_by (service.phase work, service.backlog work)
decreasing_by
  rcases _nearer later rfl with fewer | ⟨same, fewer⟩
  · exact Prod.Lex.left _ _ fewer
  · rw [same]
    exact Prod.Lex.right _ fewer

def carryOut (service : Service P σ) (attendant : Attendant P σ φ) (request : P.Call)
    (state : σ) (memory : φ) : P.Reply request × σ × φ :=
  match service.start request state with
  | (.replied reply, state) => (reply, state, memory)
  | (.waiting work, state) => service.conclude attendant work state memory

end Service

end MemoryBudget
