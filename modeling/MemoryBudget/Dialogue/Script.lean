/-!
# Scripts

A client calls a service, and while a call is in progress the service may ask the client something. A
`Protocol` lists what can be said on either side. A `Script` is what a client does: it reads and replaces its
own memory and makes calls, each of which may depend on the replies before it.
-/

set_option autoImplicit false

namespace MemoryBudget

/-- What a client may call for, and what a service may ask in the middle of a call. -/
structure Protocol where
  Call : Type
  Reply : Call → Type
  Query : Type
  Answer : Query → Type

inductive Script (P : Protocol) (φ α : Type) : Type where
  | done (result : α)
  /-- Reads the memory of the client. -/
  | consult (next : φ → Script P φ α)
  /-- Replaces the memory of the client. -/
  | remember (memory : φ) (next : Script P φ α)
  | call (request : P.Call) (next : P.Reply request → Script P φ α)

namespace Script

variable {P : Protocol} {φ α β : Type}

def bind : Script P φ α → (α → Script P φ β) → Script P φ β
  | .done result, rest => rest result
  | .consult next, rest => .consult fun memory => (next memory).bind rest
  | .remember memory next, rest => .remember memory (next.bind rest)
  | .call request next, rest => .call request fun reply => (next reply).bind rest

instance : Monad (Script P φ) where
  pure := .done
  bind := bind

def ask (request : P.Call) : Script P φ (P.Reply request) :=
  .call request .done

def note (change : φ → φ) : Script P φ Unit :=
  .consult fun memory => .remember (change memory) (.done ())

def look (part : φ → α) : Script P φ α :=
  .consult fun memory => .done (part memory)

end Script

/-- A client that may call back: each query is answered by running a script. -/
def Client (P : Protocol) (φ : Type) : Type :=
  (query : P.Query) → Script P φ (P.Answer query)

end MemoryBudget
