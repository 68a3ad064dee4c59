import MemoryBudget.Proofs.Dialogue.Linearisation
import Mathlib.Tactic.Common

/-!
# Thrift

A client that calls back from inside a query may keep a service busy for ever. It cannot if all that it puts back from
inside a query weighs less than what the query is about: then whatever it puts into the service takes the place of
something heavier, and the sum of what the service keeps and of what it still has to tell the client about goes down
with every such query, however many calls are in progress.
-/

set_option autoImplicit false

namespace MemoryBudget

variable {P : Protocol} {σ φ α : Type}

/-- What a call, or an answer that the call waits for, takes from the margin of the script that makes the call. -/
inductive Toll where
  | free
  | due (amount : Nat)
  /-- Nothing of the kind is done from inside a query. -/
  | barred

inductive Margin where
  /-- The client itself puts what it likes. -/
  | unlimited
  /-- What a script that answers a query puts must stay below this; if it is zero, nothing may be put at all. -/
  | below (bound : Nat)

namespace Toll

def amount : Toll → Nat
  | .due amount => amount
  | .free | .barred => 0

def pay : Toll → Margin → Option Margin
  | _, .unlimited => some .unlimited
  | .free, .below bound => some (.below bound)
  | .due amount, .below bound => if amount < bound then some (.below (bound - amount)) else none
  | .barred, .below _ => none

end Toll

structure Tariff (P : Protocol) where
  /-- What is taken when a call is made. -/
  toll : P.Call → Toll
  /-- The margin that a query gives. -/
  weight : P.Query → Nat
  /-- What is taken when a query is answered, from the margin of the script whose call asked it. -/
  fee : (query : P.Query) → P.Answer query → Toll

namespace Tariff

variable (tariff : Tariff P)

/-- The margins of the scripts that are running, innermost first, after one more word, unless that was too much. -/
def account : List Margin → Utterance P → Option (List Margin)
  | margin :: outer, .called request => ((tariff.toll request).pay margin).map (· :: outer)
  | margins, .asked query => some (.below (tariff.weight query) :: margins)
  | _ :: margin :: outer, .answered query answer => ((tariff.fee query answer).pay margin).map (· :: outer)
  | margins, .replied _ _ => some margins
  | _, _ => none

def margins? (said : List (Utterance P)) : Option (List Margin) :=
  said.foldlM tariff.account [.unlimited]

/-- No script that answers a query has put as much as the query weighs, or more, nor done what it must not do. -/
def Thrifty (said : List (Utterance P)) : Prop :=
  ∃ margins, tariff.margins? said = some margins

theorem margins_append (said more : List (Utterance P)) :
    tariff.margins? (said ++ more) = (tariff.margins? said).bind fun margins => more.foldlM tariff.account margins :=
  List.foldlM_append

def opened (service : Service P σ) (margin : Margin) (outer : List Margin) {request : P.Call} :
    Progress (service.Work request) (P.Reply request) → List Margin
  | .replied _ => margin :: outer
  | .waiting work => .below (tariff.weight (service.query work)) :: margin :: outer

theorem account_announce (service : Service P σ) (margin : Margin) (outer : List Margin) {request : P.Call}
    (progress : Progress (service.Work request) (P.Reply request)) :
    tariff.account (margin :: outer) (service.announce request progress) =
      some (tariff.opened service margin outer progress) := by
  cases progress with
  | replied reply => rfl
  | waiting work => rfl

/-- The margins after a word that takes a toll, and what the client hears then. -/
theorem margins_paid {service : Service P σ} {said : List (Utterance P)} {margins outer : List Margin} {margin : Margin}
    {word : Utterance P} {toll : Toll} {request : P.Call}
    (progress : Progress (service.Work request) (P.Reply request)) (kept : tariff.margins? said = some margins)
    (accounts : tariff.account margins word = (toll.pay margin).map (· :: outer)) :
    tariff.margins? (said ++ [word, service.announce request progress]) =
      (toll.pay margin).map fun margin' => tariff.opened service margin' outer progress := by
  rw [margins_append, kept, Option.bind_some, List.foldlM_cons, accounts]
  cases toll.pay margin with
  | none => rfl
  | some margin' => exact congrArg (· >>= pure) (tariff.account_announce service margin' outer progress)

end Tariff

/-! ## Margins that last -/

namespace Margin

def Open : Margin → Prop
  | .unlimited => True
  | .below bound => 0 < bound

/-- While this may be put in addition to what there is, the whole stays within the limit. -/
def Covers (limit : Nat) : Margin → Nat → Prop
  | .unlimited, _ => True
  | .below bound, load => 0 < bound → load + bound ≤ limit

def Admits (limit : Nat) : Margin → Nat → Prop
  | .unlimited, _ => True
  | .below _, load => load < limit

/-- As much as there is more, as much is left less of the margin, or even less. -/
inductive Keeps : Margin → Nat → Margin → Nat → Prop where
  | unlimited (load load' : Nat) : Keeps .unlimited load .unlimited load'
  | below {bound bound' load load' : Nat} (opens : 0 < bound' ↔ 0 < bound) (bounded : load' + bound' ≤ load + bound) :
      Keeps (.below bound) load (.below bound') load'

variable {limit load load' : Nat} {margin margin' : Margin}

theorem Keeps.refl (margin : Margin) (load : Nat) : Keeps margin load margin load := by
  cases margin with
  | unlimited => exact .unlimited load load
  | below bound => exact .below Iff.rfl (Nat.le_refl _)

theorem Keeps.trans {margin'' : Margin} {load'' : Nat} (earlier : Keeps margin load margin' load')
    (later : Keeps margin' load' margin'' load'') : Keeps margin load margin'' load'' := by
  cases earlier with
  | unlimited =>
      cases later
      exact .unlimited load load''
  | below opens bounded =>
      cases later with
      | below opens' bounded' => exact .below (opens'.trans opens) (Nat.le_trans bounded' bounded)

theorem Keeps.open (keeps : Keeps margin load margin' load') (isOpen : margin.Open) : margin'.Open := by
  cases keeps with
  | unlimited => trivial
  | below opens bounded => exact opens.mpr isOpen

theorem Keeps.covers (keeps : Keeps margin load margin' load') (covers : margin.Covers limit load) :
    margin'.Covers limit load' := by
  cases keeps with
  | unlimited => trivial
  | below opens bounded => exact fun positive => Nat.le_trans bounded (covers (opens.mp positive))

theorem Keeps.admits (keeps : Keeps margin load margin' load') {met : Nat} (admits : margin'.Admits limit met) :
    margin.Admits limit met := by
  cases keeps with
  | unlimited => trivial
  | below opens bounded => exact admits

theorem Open.admits (isOpen : margin.Open) (covers : margin.Covers limit load) {met : Nat} (part : met ≤ load) :
    margin.Admits limit met := by
  cases margin with
  | unlimited => trivial
  | below bound =>
      have positive : 0 < bound := isOpen
      have bounded := covers positive
      show met < limit
      omega

theorem keeps_of_paid {toll : Toll} (paid : toll.pay margin = some margin') (bounded : load' ≤ load + toll.amount) :
    Keeps margin load margin' load' := by
  cases margin with
  | unlimited =>
      cases paid
      exact .unlimited load load'
  | below bound =>
      cases toll with
      | free =>
          cases paid
          exact .below Iff.rfl (Nat.add_le_add_right bounded bound)
      | due amount =>
          rw [Toll.pay] at paid
          split_ifs at paid with affordable
          cases paid
          rw [Toll.amount] at bounded
          exact .below (by omega) (by omega)
      | barred => cases paid

/-- Where a toll was paid, there was something to pay it from. -/
theorem open_of_paid {toll : Toll} (paid : toll.pay margin = some margin') (notFree : toll ≠ .free) :
    margin'.Open := by
  cases margin with
  | unlimited =>
      cases paid
      trivial
  | below bound =>
      cases toll with
      | free => exact absurd rfl notFree
      | due amount =>
          rw [Toll.pay] at paid
          split_ifs at paid with affordable
          cases paid
          exact Nat.sub_pos_of_lt affordable
      | barred => cases paid

end Margin

/-! ## Scales -/

/-- What there is when a call has progressed: what the state weighs, what the client is asked about, and what the call
has still in hand. -/
def Service.heft (service : Service P σ) (tariff : Tariff P) (load : σ → Nat)
    (held : {request : P.Call} → service.Work request → Nat) {request : P.Call} :
    Progress (service.Work request) (P.Reply request) × σ → Nat
  | (.replied _, state) => load state
  | (.waiting work, state) => load state + tariff.weight (service.query work) + held work

/-- A way to weigh the states of a service: a call brings in no more than its tolls. -/
structure Scale (tariff : Tariff P) (service : Service P σ) where
  InOrder : σ → Prop
  load : σ → Nat
  /-- What a call has in hand beside what the client is being asked about. -/
  held : {request : P.Call} → service.Work request → Nat
  /-- Nothing is asked in a call that is free. -/
  replies : ∀ request state, tariff.toll request = .free → ∃ reply, (service.start request state).1 = .replied reply
  started : ∀ request state, InOrder state → InOrder (service.start request state).2 ∧
    service.heft tariff load held (service.start request state) ≤ load state + (tariff.toll request).amount
  resumed : ∀ {request} (work : service.Work request) answer state, InOrder state →
    InOrder (service.resume work answer state).2 ∧
      service.heft tariff load held (service.resume work answer state) ≤
        load state + held work + (tariff.fee (service.query work) answer).amount

/-! ## Thrifty dialogues end -/

section Ending

variable {service : Service P σ} {tariff : Tariff P} {client : Client P φ} {first : Moment service φ α}

def Moment.Meets (tariff : Tariff P) (client : Client P φ) (first : Moment service φ α) (margins : List Margin)
    (moment : Moment service φ α) : Prop :=
  ∃ said, first.Leads client said moment ∧ tariff.margins? said = some margins

namespace Moment

variable {request : P.Call} {role : Role P} {below : Stack service φ α role} {memory : φ} {state : σ}
  {margin : Margin} {outer : List Margin}

theorem Meets.silently {margins : List Margin} {moment later : Moment service φ α}
    (meets : Meets tariff client first margins moment) (moved : moment.step client = .moved [] later) :
    Meets tariff client first margins later := by
  obtain ⟨said, leads, kept⟩ := meets
  refine ⟨said, ?_, kept⟩
  have leads' := leads.step moved
  rwa [List.append_nil] at leads'

/-- A word that takes a toll, and then what the client hears. -/
theorem Meets.paying (thrifty : ∀ said moment, first.Leads client said moment → tariff.Thrifty said)
    {margins : List Margin} {moment later : Moment service φ α}
    {progress : Progress (service.Work request) (P.Reply request)}
    (meets : Meets tariff client first margins moment) (word : Utterance P) {toll : Toll}
    (moved : moment.step client = .moved [word, service.announce request progress] later)
    (accounts : tariff.account margins word = (toll.pay margin).map (· :: outer)) :
    ∃ margin', toll.pay margin = some margin' ∧
      Meets tariff client first (tariff.opened service margin' outer progress) later := by
  obtain ⟨said, leads, kept⟩ := meets
  have leads' := leads.step moved
  obtain ⟨margins', kept'⟩ := thrifty _ _ leads'
  have sum := tariff.margins_paid progress kept accounts
  cases paid : toll.pay margin with
  | none =>
      rw [sum, paid] at kept'
      cases kept'
  | some margin' =>
      rw [paid] at sum
      exact ⟨margin', rfl, _, leads', sum⟩

theorem Meets.called (thrifty : ∀ said moment, first.Leads client said moment → tariff.Thrifty said)
    {next : P.Reply request → Script P φ (role.Outcome α)}
    (meets : Meets tariff client first (margin :: outer) ⟨role, .call request next, below, memory, state⟩) :
    ∃ margin', (tariff.toll request).pay margin = some margin' ∧
      Meets tariff client first (tariff.opened service margin' outer (service.start request state).1)
        (proceed client next below memory (service.start request state)).2 :=
  meets.paying thrifty (.called request) (step_of_call next) rfl

theorem Meets.answered (thrifty : ∀ said moment, first.Leads client said moment → tariff.Thrifty said)
    {next : P.Reply request → Script P φ (role.Outcome α)} {work : service.Work request} {inner : Margin}
    {answer : P.Answer (service.query work)}
    (meets : Meets tariff client first (inner :: margin :: outer)
      ⟨.answering (service.query work), .done answer, .suspended work next below, memory, state⟩) :
    ∃ margin', (tariff.fee (service.query work) answer).pay margin = some margin' ∧
      Meets tariff client first (tariff.opened service margin' outer (service.resume work answer state).1)
        (proceed client next below memory (service.resume work answer state)).2 :=
  meets.paying thrifty (.answered (service.query work) answer) (step_of_answer next work answer) rfl

end Moment

end Ending

end MemoryBudget
