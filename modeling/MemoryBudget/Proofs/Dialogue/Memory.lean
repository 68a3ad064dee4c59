import MemoryBudget.Proofs.Dialogue.Versions

/-!
# What an attendant remembers

While a call is attended, the service and the memory of the attendant change in turns. What the start of a call and each
answer keep true of both holds when the call has its reply. Between calls a client may replace that memory as it likes;
a script that never does leaves it to the attendant.
-/

set_option autoImplicit false

namespace MemoryBudget

variable {P : Protocol} {σ φ α : Type}

/-- The script only makes calls: it may read the memory of its client, and never replaces it. -/
def Script.ReadOnly : Script P φ α → Prop
  | .done _ => True
  | .consult next => ∀ memory, (next memory).ReadOnly
  | .remember _ _ => False
  | .call _ next => ∀ reply, (next reply).ReadOnly

/-- Answers without a look at the state, and writes down every query with the state in which it is asked. -/
def Attendant.watching (answer : (query : P.Query) → φ → P.Answer query × φ) :
    Attendant P σ (φ × List (P.Query × σ)) where
  answer query state memory :=
    let (reply, later) := answer query memory.1
    (reply, state, later, memory.2 ++ [(query, state)])

namespace Service

variable (service : Service P σ) (attendant : Attendant P σ φ)

section Calls

variable {request : P.Call} (holds : Progress (service.Work request) (P.Reply request) → σ → φ → Prop)

theorem finish_keeps
    (answered : ∀ work state memory, holds (.waiting work) state memory →
      let given := attendant.answer (service.query work) state memory
      let resumed := service.resume work given.1 given.2.1
      holds resumed.1 resumed.2 given.2.2)
    (work : service.Work request) (state : σ) (memory : φ) (before : holds (.waiting work) state memory) :
    holds (.replied (service.finish attendant work state memory).1) (service.finish attendant work state memory).2.1
      (service.finish attendant work state memory).2.2 := by
  induction work, state, memory using Service.finish.induct service attendant with
  | case1 work state memory given reply state' =>
      rename_i progressed
      have after := answered work state memory before
      simp only [show service.resume work given.1 given.2.1 = _ from progressed, given] at after
      rw [finish_of_replied service attendant work state memory progressed]
      exact after
  | case2 work state memory given later state' =>
      rename_i progressed ih
      have after := answered work state memory before
      simp only [show service.resume work given.1 given.2.1 = _ from progressed, given] at after
      rw [finish_of_waiting service attendant work state memory progressed]
      exact ih after

/-- What each answer keeps, from the start of a call on, holds at its reply. -/
theorem perform_keeps
    (answered : ∀ work state memory, holds (.waiting work) state memory →
      let given := attendant.answer (service.query work) state memory
      let resumed := service.resume work given.1 given.2.1
      holds resumed.1 resumed.2 given.2.2)
    (state : σ) (memory : φ)
    (started : holds (service.start request state).1 (service.start request state).2 memory) :
    holds (.replied (service.perform attendant request state memory).1)
      (service.perform attendant request state memory).2.1 (service.perform attendant request state memory).2.2 := by
  cases begun : service.start request state with
  | mk progress state' =>
      rw [begun] at started
      cases progress with
      | replied reply =>
          rw [perform_of_replied service attendant state memory begun]
          exact started
      | waiting work =>
          rw [perform_of_waiting service attendant work state memory begun]
          exact finish_keeps service attendant holds answered work state' memory started

end Calls

/-- What every call keeps, a script keeps that only makes calls. -/
theorem attend_keeps (holds : σ → φ → Prop)
    (performed : ∀ request state memory, holds state memory →
      holds (service.perform attendant request state memory).2.1 (service.perform attendant request state memory).2.2)
    (script : Script P φ α) (readOnly : script.ReadOnly) (memory : φ) (state : σ) (before : holds state memory) :
    holds (service.attend attendant script memory state).2.2 (service.attend attendant script memory state).2.1 := by
  induction script generalizing memory state with
  | done result => exact before
  | consult next ih => exact ih memory (readOnly memory) memory state before
  | remember fresh next ih => exact readOnly.elim
  | call request next ih => exact ih _ (readOnly _) _ _ (performed request state memory before)

end Service

end MemoryBudget
