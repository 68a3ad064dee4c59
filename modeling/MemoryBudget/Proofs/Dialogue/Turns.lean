import MemoryBudget.Proofs.Dialogue.Transcript

/-!
# Turns of attended calls

What a list of calls comes to, call by call, with what the attendant is asked meanwhile and the state that each call
leaves. Whatever a client that never calls back decides to do, in the end it has made a list of calls; so what holds of
all lists holds of all such clients.
-/

set_option autoImplicit false

namespace MemoryBudget

variable {P : Protocol} {σ φ : Type}

def Attendant.noting (answer : (query : P.Query) → φ → P.Answer query × φ) : Attendant P σ (φ × List P.Query) :=
  .aloof fun query memory => ((answer query memory.1).1, (answer query memory.1).2, memory.2 ++ [query])

def remembered (answer : (query : P.Query) → φ → P.Answer query × φ) (memory : φ) (asked : List P.Query) : φ :=
  asked.foldl (fun memory query => (answer query memory).2) memory

theorem remembered_noting (answer : (query : P.Query) → φ → P.Answer query × φ) (memory : φ)
    (before asked : List P.Query) :
    remembered (fun query (memory : φ × List P.Query) =>
        ((answer query memory.1).1, (answer query memory.1).2, memory.2 ++ [query])) (memory, before) asked =
      (remembered answer memory asked, before ++ asked) := by
  induction asked generalizing memory before with
  | nil => simp [remembered]
  | cons query rest ih =>
      rw [List.append_cons before query rest]
      exact ih _ _

structure Turn (P : Protocol) (σ : Type) extends Exchange P where
  asked : List P.Query
  state : σ

namespace Service

variable (service : Service P σ) (answer : (query : P.Query) → φ → P.Answer query × φ)

def turns : List P.Call → φ → σ → List (Turn P σ)
  | [], _, _ => []
  | request :: rest, memory, state =>
      let performed := service.perform (.noting answer) request state (memory, [])
      { request := request, reply := performed.1, asked := performed.2.2.2, state := performed.2.1 } ::
        turns rest performed.2.2.1 performed.2.1

variable {service answer}

/-- What every call keeps that may follow the turns before it, holds after the last turn. -/
theorem turns_preserve {allowed : List (Exchange P) → P.Call → Prop} {holds : List (Turn P σ) → σ → Prop}
    (preserves : ∀ before request memory state, holds before state →
      allowed (before.map Turn.toExchange) request →
      let performed := service.perform (.noting answer) request state (memory, [])
      holds (before ++ [{ request := request, reply := performed.1, asked := performed.2.2.2, state := performed.2.1 }])
        performed.2.1)
    (calls : List P.Call) (memory : φ) (state : σ) (before : List (Turn P σ)) (held : holds before state)
    (orderly : Orderly allowed ((before ++ service.turns answer calls memory state).map Turn.toExchange)) :
    ∃ last, holds (before ++ service.turns answer calls memory state) last := by
  induction calls generalizing memory state before with
  | nil =>
      rw [turns, List.append_nil]
      exact ⟨state, held⟩
  | cons request rest ih =>
      have mayCall : allowed (before.map Turn.toExchange) request := by
        rw [turns, List.map_append, List.map_cons] at orderly
        exact orderly _ _ _ rfl
      rw [turns, List.append_cons] at orderly ⊢
      exact ih _ _ _ (preserves before request memory state held mayCall) orderly

end Service

end MemoryBudget
