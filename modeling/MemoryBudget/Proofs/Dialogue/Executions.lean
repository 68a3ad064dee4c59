import MemoryBudget.Dialogue.Engine
import Mathlib.Tactic.Common

/-!
# Executions

How an execution by an engine ends, one equation per construct, and what happens in it: the state is changed by
transactions alone, and each call unfolds into the query that it depends on, its transaction, all of its reports and
its reply, in this order.
-/

set_option autoImplicit false

namespace MemoryBudget

variable {P : Protocol} {σ φ ρ : Type}

/-! ## How executions end -/

namespace Execution

theorem bind_eq_some {β : Type} {first : Execution P σ φ ρ} {rest : ρ → Execution P σ φ β} {memory : φ} {state : σ}
    {course : Course P σ φ β} :
    (first >>= rest) memory state = some course ↔
      ∃ earlier later, first memory state = some earlier ∧
        rest earlier.outcome earlier.memory earlier.state = some later ∧
        course = { later with acts := earlier.acts ++ later.acts } := by
  show ((first memory state).bind fun earlier =>
    (rest earlier.outcome earlier.memory earlier.state).bind fun later =>
      some { later with acts := earlier.acts ++ later.acts }) = some course ↔ _
  simp only [Option.bind_eq_some_iff, Option.some.injEq]
  constructor
  · rintro ⟨earlier, began, later, went, rfl⟩
    exact ⟨earlier, later, began, went, rfl⟩
  · rintro ⟨earlier, later, began, went, rfl⟩
    exact ⟨earlier, began, later, went, rfl⟩

theorem pure_eq_some {outcome : ρ} {memory : φ} {state : σ} {course : Course P σ φ ρ} :
    (pure outcome : Execution P σ φ ρ) memory state = some course ↔ course = ⟨outcome, memory, state, []⟩ := by
  show some (⟨outcome, memory, state, []⟩ : Course P σ φ ρ) = some course ↔ _
  rw [Option.some.injEq, eq_comm]

theorem say_eq_some {utterance : Utterance P} {memory : φ} {state : σ} {course : Course P σ φ Unit} :
    say utterance memory state = some course ↔ course = ⟨(), memory, state, [.said utterance]⟩ := by
  rw [say, Option.some.injEq, eq_comm]

theorem change_eq_some {request : P.Call} {transaction : Transaction P σ (P.Reply request)} {memory : φ} {state : σ}
    {course : Course P σ φ (Aftermath P (P.Reply request))} :
    change transaction memory state = some course ↔
      course = ⟨(transaction state).1, memory, (transaction state).2, [.changed transaction]⟩ := by
  rw [change, Option.some.injEq, eq_comm]

end Execution

namespace Engine

open Execution

variable {ask : (query : P.Query) → Execution P σ φ (P.Answer query)} {memory : φ} {state : σ}

theorem inquire_eq_some {query : P.Query} {course : Course P σ φ (P.Answer query)} :
    inquire ask query memory state = some course ↔
      ∃ answered, ask query memory state = some answered ∧
        course = { answered with
          acts := .said (.asked query) :: answered.acts ++ [.said (.answered query answered.outcome)] } := by
  simp only [inquire, bind_eq_some, say_eq_some, pure_eq_some]
  constructor
  · rintro ⟨_, _, rfl, ⟨answered, _, went, ⟨_, _, rfl, rfl, rfl⟩, rfl⟩, rfl⟩
    exact ⟨answered, went, rfl⟩
  · rintro ⟨answered, went, rfl⟩
    exact ⟨_, _, rfl, ⟨answered, _, went, ⟨_, _, rfl, rfl, rfl⟩, rfl⟩, rfl⟩

theorem supply_asked {query : P.Query} {use : P.Answer query → ρ} {supplied : Course P σ φ ρ} :
    supply ask (.asked query use) memory state = some supplied ↔
      ∃ answered, inquire ask query memory state = some answered ∧
        supplied = ⟨use answered.outcome, answered.memory, answered.state, answered.acts⟩ := by
  simp only [supply, bind_eq_some, pure_eq_some]
  constructor
  · rintro ⟨answered, _, went, rfl, rfl⟩
    exact ⟨answered, went, by simp⟩
  · rintro ⟨answered, went, rfl⟩
    exact ⟨answered, _, went, rfl, by simp⟩

theorem settle_known {request : P.Call} {reply : P.Reply request} :
    settle ask request ⟨[], .known reply⟩ memory state =
      some ⟨reply, memory, state, [.said (.replied request reply)]⟩ := rfl

theorem settle_asked {request : P.Call} {query : P.Query} {use : P.Answer query → P.Reply request}
    {settled : Course P σ φ (P.Reply request)} :
    settle ask request ⟨[], .asked query use⟩ memory state = some settled ↔
      ∃ answered, inquire ask query memory state = some answered ∧
        settled = ⟨use answered.outcome, answered.memory, answered.state,
          answered.acts ++ [.said (.replied request (use answered.outcome))]⟩ := by
  simp only [settle, report, bind_eq_some, supply_asked, say_eq_some, pure_eq_some]
  constructor
  · rintro ⟨_, _, rfl, ⟨_, _, ⟨answered, went, rfl⟩, ⟨_, _, rfl, rfl, rfl⟩, rfl⟩, rfl⟩
    exact ⟨answered, went, by simp⟩
  · rintro ⟨answered, went, rfl⟩
    exact ⟨_, _, rfl, ⟨_, _, ⟨answered, went, rfl⟩, ⟨_, _, rfl, rfl, rfl⟩, rfl⟩, by simp⟩

theorem settle_report {request : P.Call} {query : P.Query} {rest : List P.Query} {reply : Wanted P (P.Reply request)}
    {settled : Course P σ φ (P.Reply request)} :
    settle ask request ⟨query :: rest, reply⟩ memory state = some settled ↔
      ∃ answered later, inquire ask query memory state = some answered ∧
        settle ask request ⟨rest, reply⟩ answered.memory answered.state = some later ∧
        settled = { later with acts := answered.acts ++ later.acts } := by
  simp only [settle, report, bind_eq_some]
  constructor
  · rintro ⟨_, _, ⟨answered, told, went, reported, rfl⟩, ⟨supplied, last, given, replied, rfl⟩, rfl⟩
    exact ⟨answered, _, went, ⟨told, _, reported, ⟨supplied, last, given, replied, rfl⟩, rfl⟩, by simp⟩
  · rintro ⟨answered, _, went, ⟨told, _, reported, ⟨supplied, last, given, replied, rfl⟩, rfl⟩, rfl⟩
    exact ⟨_, _, ⟨answered, told, went, reported, rfl⟩, ⟨supplied, last, given, replied, rfl⟩, by simp⟩

theorem perform_eq_some {engine : Engine P σ} {request : P.Call} {course : Course P σ φ (P.Reply request)} :
    engine.perform ask request memory state = some course ↔
      ∃ supplied settled, supply ask (engine.transaction request) memory state = some supplied ∧
        settle ask request (supplied.outcome supplied.state).1 supplied.memory
          (supplied.outcome supplied.state).2 = some settled ∧
        course = { settled with
          acts := .said (.called request) :: supplied.acts ++ .changed supplied.outcome :: settled.acts } := by
  simp only [perform, bind_eq_some, say_eq_some, change_eq_some]
  constructor
  · rintro ⟨_, _, rfl, ⟨supplied, _, given, ⟨_, settled, rfl, went, rfl⟩, rfl⟩, rfl⟩
    exact ⟨supplied, settled, given, went, rfl⟩
  · rintro ⟨supplied, settled, given, went, rfl⟩
    exact ⟨_, _, rfl, ⟨supplied, _, given, ⟨_, settled, rfl, went, rfl⟩, rfl⟩, rfl⟩

end Engine

/-! ## What happens in an execution -/

def Wanted.MayBe : Wanted P ρ → ρ → Prop
  | .known value, outcome => outcome = value
  | .asked _ use, outcome => ∃ answer, outcome = use answer

inductive Supplies : Wanted P ρ → List (Act P σ) → ρ → Prop where
  | known (value : ρ) : Supplies (.known value) [] value
  | asked (query : P.Query) (use : P.Answer query → ρ) (within : List (Act P σ)) (answer : P.Answer query) :
      Supplies (.asked query use) (.said (.asked query) :: within ++ [.said (.answered query answer)]) (use answer)

/-- Each report is given, with all that happens while the client answers it, before the next one. -/
inductive Tells : List P.Query → List (Act P σ) → Prop where
  | nothing : Tells [] []
  | next (query : P.Query) (within : List (Act P σ)) (answer : P.Answer query) {rest : List P.Query}
      {later : List (Act P σ)} (tells : Tells rest later) :
      Tells (query :: rest) (.said (.asked query) :: within ++ .said (.answered query answer) :: later)

/-- A call is made up of the query that its transaction depends on, of the transaction, of all the reports, and of
the reply, which the transaction has settled except for what the client supplies to it. -/
inductive Unfolds (engine : Engine P σ) (request : P.Call) (state : σ) :
    List (Act P σ) → P.Reply request → Prop where
  | intro {preparation told closing : List (Act P σ)} {transaction : Transaction P σ (P.Reply request)}
      {reply : P.Reply request} (prepares : Supplies (engine.transaction request) preparation transaction)
      (tells : Tells (transaction (Act.replay preparation state)).1.reports told)
      (replies : Supplies (transaction (Act.replay preparation state)).1.reply closing reply) :
      Unfolds engine request state (.said (.called request) :: preparation ++ .changed transaction :: told ++ closing ++
        [.said (.replied request reply)]) reply

namespace Act

@[simp] theorem replay_nil (state : σ) : replay ([] : List (Act P σ)) state = state := rfl

@[simp] theorem replay_said (utterance : Utterance P) (acts : List (Act P σ)) (state : σ) :
    replay (.said utterance :: acts) state = replay acts state := rfl

@[simp] theorem replay_changed {request : P.Call} (transaction : Transaction P σ (P.Reply request))
    (acts : List (Act P σ)) (state : σ) :
    replay (.changed transaction :: acts) state = replay acts (transaction state).2 := rfl

@[simp] theorem replay_append (acts more : List (Act P σ)) (state : σ) :
    replay (acts ++ more) state = replay more (replay acts state) :=
  List.foldl_append

end Act

section Unfolding

open Engine Act

variable {engine : Engine P σ} {client : Client P φ} {ask : (query : P.Query) → Execution P σ φ (P.Answer query)}
  {request : P.Call} {memory : φ} {state : σ}

def Execution.Replays (execution : Execution P σ φ ρ) : Prop :=
  ∀ memory state course, execution memory state = some course → course.state = replay course.acts state

theorem replays_inquire (replays : ∀ query, (ask query).Replays) (query : P.Query) : (inquire ask query).Replays := by
  intro memory state course went
  obtain ⟨answered, asked, rfl⟩ := inquire_eq_some.mp went
  simpa using replays query _ _ _ asked

theorem replays_supply (replays : ∀ query, (ask query).Replays) (wanted : Wanted P ρ) :
    (supply ask wanted).Replays := by
  intro memory state course went
  cases wanted with
  | known value =>
      cases went
      rfl
  | asked query use =>
      obtain ⟨answered, asked, rfl⟩ := supply_asked.mp went
      exact replays_inquire replays query _ _ _ asked

theorem replays_settle (replays : ∀ query, (ask query).Replays) (aftermath : Aftermath P (P.Reply request)) :
    (settle ask request aftermath).Replays := by
  obtain ⟨reports, reply⟩ := aftermath
  induction reports with
  | nil =>
      intro memory state course went
      cases reply with
      | known value =>
          cases went
          rfl
      | asked query use =>
          obtain ⟨answered, asked, rfl⟩ := settle_asked.mp went
          simpa using replays_inquire replays query _ _ _ asked
  | cons query rest ih =>
      intro memory state course went
      obtain ⟨answered, later, asked, settled, rfl⟩ := settle_report.mp went
      simp only [replay_append, ← replays_inquire replays query _ _ _ asked]
      exact ih _ _ _ settled

theorem replays_perform (replays : ∀ query, (ask query).Replays) (request : P.Call) :
    (engine.perform ask request).Replays := by
  intro memory state course went
  obtain ⟨supplied, settled, given, went', rfl⟩ := perform_eq_some.mp went
  simp only [List.cons_append, replay_said, replay_append, replay_changed, ← replays_supply replays _ _ _ _ given]
  exact replays_settle replays _ _ _ _ went'

theorem replays_execute (replays : ∀ query, (ask query).Replays) (script : Script P φ ρ) :
    (engine.execute ask script).Replays := by
  induction script with
  | done outcome =>
      intro memory state course went
      cases went
      rfl
  | consult next ih => exact fun memory state course went => ih memory memory state course went
  | remember memory' next ih => exact fun _ state course went => ih memory' state course went
  | call request next ih =>
      intro memory state course went
      obtain ⟨performed, rest, went', executed, rfl⟩ := Execution.bind_eq_some.mp went
      simp only [replay_append, ← replays_perform replays request _ _ _ went']
      exact ih _ _ _ _ executed

theorem replays_answer (depth : Nat) (query : P.Query) : (engine.answer client depth query).Replays := by
  induction depth generalizing query with
  | zero =>
      intro memory state course went
      cases went
  | succ depth ih => exact replays_execute ih (client query)

theorem supplies_of_supply {wanted : Wanted P ρ} {supplied : Course P σ φ ρ}
    (given : supply ask wanted memory state = some supplied) : Supplies wanted supplied.acts supplied.outcome := by
  cases wanted with
  | known value =>
      cases given
      exact .known value
  | asked query use =>
      obtain ⟨answered, asked, rfl⟩ := supply_asked.mp given
      obtain ⟨inner, _, rfl⟩ := inquire_eq_some.mp asked
      exact .asked query use inner.acts inner.outcome

theorem tells_of_settle {aftermath : Aftermath P (P.Reply request)} {settled : Course P σ φ (P.Reply request)}
    (went : settle ask request aftermath memory state = some settled) :
    ∃ told closing, settled.acts = told ++ closing ++ [.said (.replied request settled.outcome)] ∧
      Tells aftermath.reports told ∧ Supplies aftermath.reply closing settled.outcome := by
  obtain ⟨reports, reply⟩ := aftermath
  induction reports generalizing memory state settled with
  | nil =>
      cases reply with
      | known value =>
          cases went
          exact ⟨[], [], rfl, .nothing, .known value⟩
      | asked query use =>
          obtain ⟨answered, asked, rfl⟩ := settle_asked.mp went
          obtain ⟨inner, _, rfl⟩ := inquire_eq_some.mp asked
          exact ⟨[], _, rfl, .nothing, .asked query use inner.acts inner.outcome⟩
  | cons query rest ih =>
      obtain ⟨answered, later, asked, settled', rfl⟩ := settle_report.mp went
      obtain ⟨told, closing, parted, tells, replies⟩ := ih settled'
      obtain ⟨inner, _, rfl⟩ := inquire_eq_some.mp asked
      exact ⟨_, closing, by simp [parted], .next query inner.acts inner.outcome tells, replies⟩

theorem unfolds_of_perform (replays : ∀ query, (ask query).Replays) {course : Course P σ φ (P.Reply request)}
    (went : engine.perform ask request memory state = some course) :
    Unfolds engine request state course.acts course.outcome := by
  obtain ⟨supplied, settled, given, went', rfl⟩ := perform_eq_some.mp went
  obtain ⟨told, closing, parted, tells, replies⟩ := tells_of_settle went'
  rw [replays_supply replays _ _ _ _ given] at tells replies
  simpa [parted] using Unfolds.intro (supplies_of_supply given) tells replies

end Unfolding

end MemoryBudget
