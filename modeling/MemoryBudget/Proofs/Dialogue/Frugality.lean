import MemoryBudget.Proofs.Dialogue.Thrift

/-!
# Frugal scripts

A script is frugal if it puts less than its bound whatever it reads and whatever it is replied. A client whose answers
are frugal keeps to its margins in every dialogue. What a call will cost is estimated before it is made: the estimate
covers its toll and the fees of the answers that are expected.
-/

set_option autoImplicit false

namespace MemoryBudget

variable {P : Protocol} {σ φ α : Type} {service : Service P σ} {tariff : Tariff P}

structure Estimate (tariff : Tariff P) (service : Service P σ) where
  expected : (query : P.Query) → P.Answer query → Prop
  quote : P.Call → Nat
  /-- What is left to pay of a call that waits. -/
  owed : {request : P.Call} → service.Work request → Nat
  covered : ∀ request, (tariff.toll request).amount ≤ quote request
  started : ∀ {request} (work : service.Work request) state state', service.start request state = (.waiting work, state') →
    (tariff.toll request).amount + owed work ≤ quote request
  payable : ∀ {request} (work : service.Work request) answer, expected (service.query work) answer →
    tariff.fee (service.query work) answer ≠ .barred ∧ (tariff.fee (service.query work) answer).amount ≤ owed work
  resumed : ∀ {request} (work later : service.Work request) answer state state',
    expected (service.query work) answer → service.resume work answer state = (.waiting later, state') →
      (tariff.fee (service.query work) answer).amount + owed later ≤ owed work

variable (estimate : Estimate tariff service)

/-- A script that puts less than a bound, does nothing that is barred, and ends as it should. -/
def Script.Frugal (ends : α → Prop) : Script P φ α → Nat → Prop
  | .done result, _ => ends result
  | .consult next, bound => ∀ memory, (next memory).Frugal ends bound
  | .remember _ next, bound => next.Frugal ends bound
  | .call request next, bound =>
      match tariff.toll request with
      | .free => ∀ reply, (next reply).Frugal ends bound
      | .due _ => estimate.quote request < bound ∧ ∀ reply, (next reply).Frugal ends (bound - estimate.quote request)
      | .barred => False

theorem Script.Frugal.mono {ends : α → Prop} {script : Script P φ α} {bound bound' : Nat}
    (frugal : script.Frugal estimate ends bound) (atMost : bound ≤ bound') : script.Frugal estimate ends bound' := by
  induction script generalizing bound bound' with
  | done result => exact frugal
  | consult next ih => exact fun memory => ih memory (frugal memory) atMost
  | remember memory next ih => exact ih frugal atMost
  | call request next ih =>
      rw [Script.Frugal] at frugal ⊢
      cases toll : tariff.toll request with
      | free =>
          rw [toll] at frugal
          exact fun reply => ih reply (frugal reply) atMost
      | due amount =>
          rw [toll] at frugal
          obtain ⟨affordable, later⟩ := frugal
          exact ⟨by omega, fun reply => ih reply (later reply) (by omega)⟩
      | barred =>
          rw [toll] at frugal
          exact frugal.elim

/-- The script for a query is frugal within the weight of the query, and ends with an answer that is expected. -/
def Client.Frugal (client : Client P φ) (query : P.Query) : Prop :=
  (client query).Frugal estimate (estimate.expected query) (tariff.weight query)

/-! ## Moments between frugal scripts -/

def Role.Frugal : (role : Role P) → Margin → Script P φ (role.Outcome α) → Prop
  | .client, margin, _ => margin = .unlimited
  | .answering query, margin, script =>
      ∃ bound, margin = .below bound ∧ script.Frugal estimate (estimate.expected query) bound

def Role.Owes {ρ : Type} : (role : Role P) → Margin → Nat → (ρ → Script P φ (role.Outcome α)) → Prop
  | .client, margin, _, _ => margin = .unlimited
  | .answering query, margin, owed, next =>
      ∃ bound, margin = .below bound ∧ owed < bound ∧
        ∀ reply, (next reply).Frugal estimate (estimate.expected query) (bound - owed)

def Stack.Frugal : {role : Role P} → Stack service φ α role → List Margin → Prop
  | _, .bottom, outer => outer = []
  | _, @Stack.suspended _ _ _ _ _ _ work role next below, outer =>
      ∃ margin rest, outer = margin :: rest ∧ role.Owes estimate margin (estimate.owed work) next ∧
        below.Frugal rest

def Moment.Frugal (moment : Moment service φ α) (margins : List Margin) : Prop :=
  ∃ margin outer, margins = margin :: outer ∧ moment.role.Frugal estimate margin moment.script ∧
    moment.stack.Frugal estimate outer

variable {estimate} {client : Client P φ} {request : P.Call} {role : Role P} {below : Stack service φ α role} {memory : φ}
  {state : σ} {margin : Margin} {outer : List Margin} {next : P.Reply request → Script P φ (role.Outcome α)}

/-- A call that has progressed, with what has been paid of it. -/
theorem Moment.frugal_of_proceeded {progressed : Progress (service.Work request) (P.Reply request) × σ}
    (rest : below.Frugal estimate outer)
    (replied : ∀ reply, progressed.1 = .replied reply → role.Frugal estimate margin (next reply))
    (waits : ∀ work, progressed.1 = .waiting work → role.Owes estimate margin (estimate.owed work) next)
    (answers : ∀ pending ∈ (proceed client next below memory progressed).2.works,
      client.Frugal estimate (service.query pending.work)) :
    Moment.Frugal estimate (proceed client next below memory progressed).2
      (tariff.opened service margin outer progressed.1) := by
  obtain ⟨progress, state⟩ := progressed
  cases progress with
  | replied reply => exact ⟨margin, outer, rfl, replied reply rfl, rest⟩
  | waiting work =>
      have frugal := answers ⟨request, work⟩ List.mem_cons_self
      exact ⟨_, margin :: outer, rfl, ⟨_, rfl, frugal⟩, margin, outer, rfl, waits work rfl, rest⟩

/-- A frugal script pays for the calls that it makes, and is frugal after them. -/
theorem Script.Frugal.pays {ends : α → Prop} {next : P.Reply request → Script P φ α} {bound : Nat}
    (frugal : (Script.call request next).Frugal estimate ends bound) :
    ∃ bound', (tariff.toll request).pay (.below bound) = some (.below bound') ∧
      (∀ reply, (next reply).Frugal estimate ends bound') ∧
      (tariff.toll request ≠ .free → ∀ owed, (tariff.toll request).amount + owed ≤ estimate.quote request →
        owed < bound' ∧ ∀ reply, (next reply).Frugal estimate ends (bound' - owed)) := by
  have covered := estimate.covered request
  rw [Script.Frugal] at frugal
  cases toll : tariff.toll request with
  | free =>
      rw [toll] at frugal
      exact ⟨bound, rfl, frugal, fun notFree => absurd rfl notFree⟩
  | due amount =>
      rw [toll] at frugal covered
      obtain ⟨affordable, later⟩ := frugal
      rw [Toll.amount] at covered
      refine ⟨bound - amount, ?_, ?_, ?_⟩
      · rw [Toll.pay, if_pos (by omega)]
      · exact fun reply => (later reply).mono estimate (by omega)
      · intro _ owed within
        rw [Toll.amount] at within
        exact ⟨by omega, fun reply => (later reply).mono estimate (by omega)⟩
  | barred =>
      rw [toll] at frugal
      exact frugal.elim

theorem Role.Frugal.pays (frugal : role.Frugal estimate margin (.call request next)) :
    ∃ margin', (tariff.toll request).pay margin = some margin' ∧
      (∀ reply, role.Frugal estimate margin' (next reply)) ∧
      (tariff.toll request ≠ .free → ∀ owed, (tariff.toll request).amount + owed ≤ estimate.quote request →
        role.Owes estimate margin' owed next) := by
  cases role with
  | client =>
      cases frugal
      refine ⟨.unlimited, ?_, fun _ => rfl, fun _ _ _ => rfl⟩
      cases tariff.toll request <;> rfl
  | answering query =>
      obtain ⟨bound, rfl, frugal⟩ := frugal
      obtain ⟨bound', paid, later, owes⟩ := Script.Frugal.pays frugal
      exact ⟨.below bound', paid, fun reply => ⟨bound', rfl, later reply⟩,
        fun notFree owed within => ⟨bound', rfl, owes notFree owed within⟩⟩

/-- What is still owed is paid from the margin, and the rest is owed later. -/
theorem Role.Owes.pays {owed : Nat} (owes : role.Owes estimate margin owed next) {toll : Toll} (allowed : toll ≠ .barred)
    (covered : toll.amount ≤ owed) :
    ∃ margin', toll.pay margin = some margin' ∧ (∀ reply, role.Frugal estimate margin' (next reply)) ∧
      ∀ owed', toll.amount + owed' ≤ owed → role.Owes estimate margin' owed' next := by
  cases role with
  | client =>
      cases owes
      refine ⟨.unlimited, ?_, fun _ => rfl, fun _ _ => rfl⟩
      cases toll <;> rfl
  | answering query =>
      obtain ⟨bound, rfl, affordable, later⟩ := owes
      cases toll with
      | free =>
          refine ⟨.below bound, rfl, fun reply => ⟨bound, rfl, (later reply).mono estimate (by omega)⟩, ?_⟩
          intro owed' within
          rw [Toll.amount] at within
          exact ⟨bound, rfl, by omega, fun reply => (later reply).mono estimate (by omega)⟩
      | due amount =>
          rw [Toll.amount] at covered
          refine ⟨.below (bound - amount), ?_, fun reply => ⟨_, rfl, (later reply).mono estimate (by omega)⟩, ?_⟩
          · rw [Toll.pay, if_pos (by omega)]
          · intro owed' within
            rw [Toll.amount] at within
            exact ⟨_, rfl, by omega, fun reply => (later reply).mono estimate (by omega)⟩
      | barred => exact absurd rfl allowed

/-- What is known of a dialogue between frugal scripts: all answers were as expected, and the margins suffice. -/
structure Estimate.Bears (estimate : Estimate tariff service) (said : List (Utterance P)) (moment : Moment service φ α) :
    Prop where
  expected : ∀ query answer, .answered query answer ∈ said → estimate.expected query answer
  frugal : ∃ margins, tariff.margins? said = some margins ∧ moment.Frugal estimate margins

theorem Role.Frugal.consults {next : φ → Script P φ (role.Outcome α)}
    (frugal : role.Frugal estimate margin (.consult next)) (memory : φ) : role.Frugal estimate margin (next memory) := by
  cases role with
  | client => exact frugal
  | answering query =>
      obtain ⟨bound, below, later⟩ := frugal
      exact ⟨bound, below, later memory⟩

theorem Role.Frugal.remembers {script : Script P φ (role.Outcome α)}
    (frugal : role.Frugal estimate margin (.remember memory script)) : role.Frugal estimate margin script := by
  cases role with
  | client => exact frugal
  | answering query =>
      obtain ⟨bound, below, later⟩ := frugal
      exact ⟨bound, below, later⟩

namespace Estimate.Bears

variable {said more : List (Utterance P)} {moment later : Moment service φ α}

theorem silently (bears : estimate.Bears said moment) {margins : List Margin} (kept : tariff.margins? said = some margins)
    (frugal : later.Frugal estimate margins) : estimate.Bears (said ++ []) later := by
  rw [List.append_nil]
  exact ⟨bears.expected, margins, kept, frugal⟩

/-- One word and what the client hears then add an answer only if the word is one. -/
theorem expects (bears : estimate.Bears said moment) (word : Utterance P)
    (progress : Progress (service.Work request) (P.Reply request))
    (fair : ∀ query answer, .answered query answer = word → estimate.expected query answer)
    (query : P.Query) (answer : P.Answer query)
    (member : .answered query answer ∈ said ++ [word, service.announce request progress]) :
    estimate.expected query answer := by
  rcases List.mem_append.mp member with before | now
  · exact bears.expected query answer before
  · rcases List.mem_cons.mp now with same | heard
    · exact fair query answer same
    · cases progress <;> cases List.mem_singleton.mp heard

theorem step (scale : Scale tariff service) (bears : estimate.Bears said moment)
    (moved : moment.step client = .moved more later)
    (answers : (∀ query answer, .answered query answer ∈ said ++ more → estimate.expected query answer) →
      ∀ pending ∈ later.works, client.Frugal estimate (service.query pending.work)) :
    estimate.Bears (said ++ more) later := by
  obtain ⟨margins, kept, margin, outer, rfl, running, rest⟩ := bears.frugal
  obtain ⟨role, script, stack, memory, state⟩ := moment
  cases script with
  | consult next =>
      cases moved
      exact bears.silently kept ⟨margin, outer, rfl, running.consults memory, rest⟩
  | remember memory' next =>
      cases moved
      exact bears.silently kept ⟨margin, outer, rfl, running.remembers, rest⟩
  | call request next =>
      rw [Moment.step_of_call] at moved
      obtain ⟨rfl, rfl⟩ := Step.moved.inj moved
      obtain ⟨margin', paid, goesOn, owes⟩ := running.pays
      have expected := bears.expects (.called request) (service.start request state).1 nofun
      refine ⟨expected, _, (tariff.margins_paid _ kept rfl).trans (congrArg _ paid), ?_⟩
      refine Moment.frugal_of_proceeded rest (fun reply _ => goesOn reply) ?_ (answers expected)
      intro work waits
      have notFree : tariff.toll request ≠ .free := by
        intro free
        obtain ⟨_, replied⟩ := scale.replies request state free
        rw [waits] at replied
        cases replied
      exact owes notFree _ (estimate.started work state _ (Prod.ext waits rfl))
  | done outcome =>
      cases stack with
      | bottom => cases moved
      | suspended work next below =>
          obtain ⟨rfl, rfl⟩ := Step.moved.inj ((Moment.step_of_answer next work outcome).symm.trans moved)
          obtain ⟨bound, rfl, (fair : estimate.expected (service.query work) outcome)⟩ := running
          obtain ⟨margin', rest', rfl, owes, below'⟩ := rest
          obtain ⟨allowed, covered⟩ := estimate.payable work outcome fair
          obtain ⟨margin'', paid, goesOn, owes'⟩ := owes.pays allowed covered
          have expected := bears.expects (.answered (service.query work) outcome) (service.resume work outcome state).1
            fun query answer same => by
              cases same
              exact fair
          refine ⟨expected, _, (tariff.margins_paid _ kept rfl).trans (congrArg _ paid), ?_⟩
          refine Moment.frugal_of_proceeded below' (fun reply _ => goesOn reply) ?_ (answers expected)
          intro later waits
          exact owes' _ (estimate.resumed work later outcome state _ fair (Prod.ext waits rfl))

end Estimate.Bears

/-- A client is thrifty if it is frugal about whatever it is asked while all answers are as expected. -/
theorem Estimate.thrifty (estimate : Estimate tariff service) (scale : Scale tariff service) {script : Script P φ α}
    (frugal : ∀ said moment, (Moment.opening script memory state : Moment service φ α).Leads client said moment →
      (∀ query answer, .answered query answer ∈ said → estimate.expected query answer) →
        ∀ pending ∈ moment.works, client.Frugal estimate (service.query pending.work))
    (said : List (Utterance P)) (moment : Moment service φ α)
    (leads : (Moment.opening script memory state).Leads client said moment) : tariff.Thrifty said := by
  have bears : estimate.Bears said moment := by
    induction leads with
    | here => exact ⟨nofun, [.unlimited], rfl, .unlimited, [], rfl, rfl, rfl⟩
    | step leads moved ih => exact ih.step scale moved (frugal _ _ (leads.step moved))
  obtain ⟨margins, kept, _⟩ := bears.frugal
  exact ⟨margins, kept⟩

end MemoryBudget
