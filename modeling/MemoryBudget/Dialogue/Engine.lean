import MemoryBudget.Dialogue.Machine

/-!
# Engines

A service holds its calls while its client answers, and a client that calls back meets it with calls in progress.
An `Engine` knows no calls in progress: each call is one transaction on the state. What the client has to say is
asked before the transaction, what it is told is reported afterwards, and what it supplies to the reply is asked
last. Executed by an engine, a client that calls back is an ordinary recursive program: each report is finished,
with all the calls that it makes, before the next one is given.
-/

set_option autoImplicit false

namespace MemoryBudget

/-- A value that is known, or one that the client supplies by answering a query. -/
inductive Wanted (P : Protocol) (ρ : Type) where
  | known (value : ρ)
  | asked (query : P.Query) (use : P.Answer query → ρ)

/-- What is left of a call when its transaction is done. -/
structure Aftermath (P : Protocol) (ρ : Type) where
  /-- What the client is told, in order. Its answers do not matter. -/
  reports : List P.Query
  reply : Wanted P ρ

/-- What a call does to the state, all at once. -/
def Transaction (P : Protocol) (σ ρ : Type) : Type :=
  σ → Aftermath P ρ × σ

structure Engine (P : Protocol) (σ : Type) where
  transaction : (request : P.Call) → Wanted P (Transaction P σ (P.Reply request))

/-- What happens in an execution: something is said, or a transaction changes the state. -/
inductive Act (P : Protocol) (σ : Type) where
  | said (utterance : Utterance P)
  | changed {request : P.Call} (transaction : Transaction P σ (P.Reply request))

namespace Act

variable {P : Protocol} {σ : Type}

def utterance? : Act P σ → Option (Utterance P)
  | .said utterance => some utterance
  | .changed _ => none

def apply (state : σ) : Act P σ → σ
  | .said _ => state
  | .changed transaction => (transaction state).2

def spoken (acts : List (Act P σ)) : List (Utterance P) :=
  acts.filterMap utterance?

def replay (acts : List (Act P σ)) (state : σ) : σ :=
  acts.foldl apply state

end Act

structure Course (P : Protocol) (σ φ ρ : Type) where
  outcome : ρ
  memory : φ
  state : σ
  acts : List (Act P σ)

/-- A program that reads and changes the memory of the client and the state of the engine, or comes to no end. -/
def Execution (P : Protocol) (σ φ ρ : Type) : Type :=
  φ → σ → Option (Course P σ φ ρ)

namespace Execution

variable {P : Protocol} {σ φ α : Type}

instance : Monad (Execution P σ φ) where
  pure outcome := fun memory state => some ⟨outcome, memory, state, []⟩
  bind first rest := fun memory state => do
    let earlier ← first memory state
    let later ← rest earlier.outcome earlier.memory earlier.state
    return { later with acts := earlier.acts ++ later.acts }

def say (utterance : Utterance P) : Execution P σ φ Unit := fun memory state =>
  some ⟨(), memory, state, [.said utterance]⟩

def change {request : P.Call} (transaction : Transaction P σ (P.Reply request)) :
    Execution P σ φ (Aftermath P (P.Reply request)) := fun memory state =>
  some ⟨(transaction state).1, memory, (transaction state).2, [.changed transaction]⟩

def endless : Execution P σ φ α := fun _ _ => none

end Execution

namespace Engine

open Execution

variable {P : Protocol} {σ φ α : Type}

section Asking

variable (ask : (query : P.Query) → Execution P σ φ (P.Answer query))

def inquire (query : P.Query) : Execution P σ φ (P.Answer query) := do
  say (.asked query)
  let answer ← ask query
  say (.answered query answer)
  return answer

def supply : Wanted P α → Execution P σ φ α
  | .known value => pure value
  | .asked query use => do
      let answer ← inquire ask query
      return use answer

def report : List P.Query → Execution P σ φ Unit
  | [] => pure ()
  | query :: rest => do
      let _ ← inquire ask query
      report rest

def settle (request : P.Call) (aftermath : Aftermath P (P.Reply request)) : Execution P σ φ (P.Reply request) := do
  report ask aftermath.reports
  let reply ← supply ask aftermath.reply
  say (.replied request reply)
  return reply

def perform (engine : Engine P σ) (request : P.Call) : Execution P σ φ (P.Reply request) := do
  say (.called request)
  let transaction ← supply ask (engine.transaction request)
  let aftermath ← change transaction
  settle ask request aftermath

def execute (engine : Engine P σ) : Script P φ α → Execution P σ φ α
  | .done result => pure result
  | .consult next => fun memory state => engine.execute (next memory) memory state
  | .remember memory next => fun _ state => engine.execute next memory state
  | .call request next => do
      let reply ← engine.perform ask request
      engine.execute (next reply)

end Asking

/-- The client answers by executing its script for the query. Calls that it makes there may ask again, at most
`depth` deep. -/
def answer (engine : Engine P σ) (client : Client P φ) : Nat → (query : P.Query) → Execution P σ φ (P.Answer query)
  | 0, _ => endless
  | depth + 1, query => engine.execute (engine.answer client depth) (client query)

def converse (engine : Engine P σ) (client : Client P φ) (depth : Nat) (script : Script P φ α) :
    Execution P σ φ α :=
  engine.execute (engine.answer client depth) script

end Engine

end MemoryBudget
