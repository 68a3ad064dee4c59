import MemoryBudget.Dialogue.Service
import Mathlib.Tactic.Common

/-!
# Transcripts of attended scripts

What a client that never calls back has asked for and what it was given, call by call. Which calls a script makes may
depend on the replies before, so what a client may do is said of the transcript: each call has to be one that may follow
the exchanges before it.
-/

set_option autoImplicit false

namespace MemoryBudget

variable {P : Protocol} {σ τ φ α : Type}

structure Exchange (P : Protocol) where
  request : P.Call
  reply : P.Reply request

def Orderly (allowed : List (Exchange P) → P.Call → Prop) (exchanged : List (Exchange P)) : Prop :=
  ∀ earlier exchange later, exchanged = earlier ++ exchange :: later → allowed earlier exchange.request

variable {allowed : List (Exchange P) → P.Call → Prop}

theorem orderly_nothing : Orderly allowed [] := by
  intro earlier exchange later parted
  cases earlier <;> cases parted

/-- One more call may follow. -/
theorem Orderly.snoc {exchanged : List (Exchange P)} (orderly : Orderly allowed exchanged) {exchange : Exchange P}
    (mayFollow : allowed exchanged exchange.request) : Orderly allowed (exchanged ++ [exchange]) := by
  intro earlier other later parted
  rcases List.eq_nil_or_concat later with rfl | ⟨before, last, rfl⟩
  · obtain ⟨rfl, same⟩ := List.append_inj' parted rfl
    cases same
    exact mayFollow
  · rw [List.concat_eq_append, ← List.cons_append, ← List.append_assoc] at parted
    obtain ⟨rfl, _⟩ := List.append_inj' parted rfl
    exact orderly earlier other before rfl

namespace Service

def transcript (service : Service P σ) (attendant : Attendant P σ φ) : Script P φ α → φ → σ → List (Exchange P)
  | .done _, _, _ => []
  | .consult next, memory, state => service.transcript attendant (next memory) memory state
  | .remember memory next, _, state => service.transcript attendant next memory state
  | .call request next, memory, state =>
      let (reply, state, memory) := service.perform attendant request state memory
      ⟨request, reply⟩ :: service.transcript attendant (next reply) memory state

structure Alike (related : List (Exchange P) → σ → τ → Prop) (before : List (Exchange P)) (request : P.Call)
    (one : P.Reply request × σ × φ) (two : P.Reply request × τ × φ) : Prop where
  reply : one.1 = two.1
  memory : one.2.2 = two.2.2
  states : related (before ++ [⟨request, one.1⟩]) one.2.1 two.2.1

variable {service : Service P σ} {other : Service P τ} {attendant : Attendant P σ φ} {attendant' : Attendant P τ φ}

/-- If two services answer each allowed call alike, a client that makes only such calls cannot tell them apart. -/
theorem attend_agrees {related : List (Exchange P) → σ → τ → Prop}
    (agrees : ∀ before request state state' memory, related before state state' → allowed before request →
      Alike related before request (service.perform attendant request state memory)
        (other.perform attendant' request state' memory))
    (script : Script P φ α) (memory : φ) (state : σ) (state' : τ) (before : List (Exchange P))
    (orderly : Orderly allowed (before ++ service.transcript attendant script memory state))
    (alike : related before state state') :
    service.transcript attendant script memory state = other.transcript attendant' script memory state' ∧
      (service.attend attendant script memory state).1 = (other.attend attendant' script memory state').1 ∧
      (service.attend attendant script memory state).2.1 = (other.attend attendant' script memory state').2.1 ∧
      related (before ++ service.transcript attendant script memory state)
        (service.attend attendant script memory state).2.2 (other.attend attendant' script memory state').2.2 := by
  induction script generalizing memory state state' before with
  | done result =>
      rw [transcript, List.append_nil]
      exact ⟨rfl, rfl, rfl, alike⟩
  | consult next ih => exact ih memory memory state state' before orderly alike
  | remember fresh next ih => exact ih fresh state state' before orderly alike
  | call request next ih =>
      have mayCall : allowed before request := orderly before _ _ rfl
      have answered := agrees before request state state' memory alike mayCall
      rw [transcript] at orderly
      rw [transcript, transcript, attend, attend]
      generalize service.perform attendant request state memory = one at answered orderly
      generalize other.perform attendant' request state' memory = two at answered
      obtain ⟨reply, later, memory'⟩ := one
      obtain ⟨_, later', _⟩ := two
      obtain ⟨rfl, rfl, related'⟩ := answered
      have orderly' : Orderly allowed (before ++ [⟨request, reply⟩] ++
          service.transcript attendant (next reply) memory' later) := by
        rw [← List.append_cons]
        exact orderly
      obtain ⟨same, result, last, final⟩ := ih reply memory' later later' _ orderly' related'
      rw [← List.append_cons] at final
      exact ⟨congrArg _ same, result, last, final⟩

/-- What every allowed call preserves holds after a script that makes only such calls. -/
theorem attend_preserves {holds : List (Exchange P) → σ → Prop}
    (preserves : ∀ before request state memory, holds before state → allowed before request →
      holds (before ++ [⟨request, (service.perform attendant request state memory).1⟩])
        (service.perform attendant request state memory).2.1)
    (script : Script P φ α) (memory : φ) (state : σ)
    (orderly : Orderly allowed (service.transcript attendant script memory state)) (initially : holds [] state) :
    holds (service.transcript attendant script memory state) (service.attend attendant script memory state).2.2 := by
  -- The service is compared with itself.
  have agrees : ∀ before request state state' memory, (state = state' ∧ holds before state) → allowed before request →
      Alike (fun before state state' => state = state' ∧ holds before state) before request
        (service.perform attendant request state memory) (service.perform attendant request state' memory) := by
    rintro before request state _ memory ⟨rfl, held⟩ mayCall
    exact ⟨rfl, rfl, rfl, preserves before request state memory held mayCall⟩
  obtain ⟨_, _, _, _, held⟩ := attend_agrees agrees script memory state state [] orderly ⟨rfl, initially⟩
  exact held

end Service

end MemoryBudget
