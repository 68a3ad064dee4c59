import MemoryBudget.Proofs.Dialogue.Thrift

/-!
# Thrifty dialogues end

Every query that leaves some margin is about something heavier than all that is put while it is answered. So what there
is while it is answered stays below what there was before, and by induction on that every query is answered: its script
is finite, and the queries in the calls that it makes come to less. A query that leaves no margin is answered without
asking anything.
-/

set_option autoImplicit false

namespace MemoryBudget

open Moment

def Service.Ends {P : Protocol} {σ φ α : Type} (service : Service P σ) (client : Client P φ) (script : Script P φ α)
    (memory : φ) (state : σ) : Prop :=
  ∃ patience ending, service.converse client patience script memory state = some ending

variable {P : Protocol} {σ φ α : Type} {service : Service P σ} {tariff : Tariff P}

namespace Scale

variable (scale : Scale tariff service) (client : Client P φ) (first : Moment service φ α)

/-- Every query that is asked while there is no more than this is answered, and then there is no more than before. -/
def Answers (limit : Nat) : Prop :=
  ∀ {request : P.Call} (work : service.Work request) {role : Role P} (next : P.Reply request →
      Script P φ (role.Outcome α)) (below : Stack service φ α role) (outer : List Margin) (memory : φ) (state : σ),
    scale.InOrder state → scale.load state + tariff.weight (service.query work) ≤ limit →
    Meets tariff client first (.below (tariff.weight (service.query work)) :: outer)
      ⟨.answering (service.query work), client (service.query work), .suspended work next below, memory, state⟩ →
    ∃ answer margin memory' state', scale.InOrder state' ∧
      scale.load state' ≤ scale.load state + tariff.weight (service.query work) ∧
      Meets tariff client first (margin :: outer)
        ⟨.answering (service.query work), .done answer, .suspended work next below, memory', state'⟩

def Settles {request : P.Call} {role : Role P} (next : P.Reply request → Script P φ (role.Outcome α))
    (below : Stack service φ α role) (margin : Margin) (outer : List Margin) (heft : Nat) : Prop :=
  ∃ reply margin' memory state, scale.InOrder state ∧ Margin.Keeps margin heft margin' (scale.load state) ∧
    Meets tariff client first (margin' :: outer) ⟨role, next reply, below, memory, state⟩

variable {scale client first} {limit : Nat} {request : P.Call} {role : Role P}
  {next : P.Reply request → Script P φ (role.Outcome α)} {below : Stack service φ α role} {margin : Margin}
  {outer : List Margin} {memory : φ} {state : σ}

theorem Settles.later {margin' : Margin} {heft heft' : Nat} (keeps : Margin.Keeps margin heft margin' heft')
    (settles : scale.Settles client first next below margin' outer heft') :
    scale.Settles client first next below margin outer heft := by
  obtain ⟨reply, margin'', memory, state, inOrder, keeps', meets⟩ := settles
  exact ⟨reply, margin'', memory, state, inOrder, keeps.trans keeps', meets⟩

/-- A call that waits gets its answers one after the other. -/
theorem settles_of_waiting (thrifty : ∀ said moment, first.Leads client said moment → tariff.Thrifty said)
    {margin : Margin} (answers : ∀ load, margin.Admits limit load → scale.Answers client first load)
    (work : service.Work request) {memory : φ} {state : σ} (inOrder : scale.InOrder state) (isOpen : margin.Open)
    (covers : margin.Covers limit (scale.load state + tariff.weight (service.query work) + scale.held work))
    (meets : Meets tariff client first (.below (tariff.weight (service.query work)) :: margin :: outer)
      ⟨.answering (service.query work), client (service.query work), .suspended work next below, memory, state⟩) :
    scale.Settles client first next below margin outer
      (scale.load state + tariff.weight (service.query work) + scale.held work) := by
  have admitted := isOpen.admits covers (Nat.le_add_right _ (scale.held work))
  obtain ⟨answer, inner, memory', state', inOrder', lighter, meets'⟩ :=
    answers _ admitted work next below (margin :: outer) memory state inOrder (Nat.le_refl _) meets
  obtain ⟨margin', paid, meets''⟩ := meets'.answered thrifty
  obtain ⟨inOrder'', heft⟩ := scale.resumed work answer state' inOrder'
  have keeps : Margin.Keeps margin (scale.load state + tariff.weight (service.query work) + scale.held work) margin'
      (service.heft tariff scale.load scale.held (service.resume work answer state')) :=
    Margin.keeps_of_paid paid (by omega)
  match progressed : service.resume work answer state' with
  | (.replied reply, state'') =>
      rw [progressed] at meets'' inOrder'' keeps
      exact ⟨reply, margin', memory', state'', inOrder'', keeps, meets''⟩
  | (.waiting later, state'') =>
      rw [progressed] at meets'' inOrder'' keeps
      exact Settles.later keeps (settles_of_waiting thrifty (fun load admits => answers load (keeps.admits admits)) later
        inOrder'' (keeps.open isOpen) (keeps.covers covers) meets'')
termination_by (service.phase work, service.backlog work)
decreasing_by
  rcases service.advances work _ _ _ _ progressed with fewer | ⟨same, fewer⟩
  · exact Prod.Lex.left _ _ fewer
  · rw [same]
    exact Prod.Lex.right _ fewer

theorem settles (thrifty : ∀ said moment, first.Leads client said moment → tariff.Thrifty said)
    (answers : ∀ load, margin.Admits limit load → scale.Answers client first load) (inOrder : scale.InOrder state)
    (covers : margin.Covers limit (scale.load state))
    (meets : Meets tariff client first (margin :: outer) ⟨role, .call request next, below, memory, state⟩) :
    scale.Settles client first next below margin outer (scale.load state) := by
  obtain ⟨margin', paid, meets'⟩ := meets.called thrifty
  obtain ⟨inOrder', heft⟩ := scale.started request state inOrder
  have keeps := Margin.keeps_of_paid paid heft
  have replies := scale.replies request state
  cases progressed : service.start request state with
  | mk progress state' =>
      rw [progressed] at meets' inOrder' keeps replies
      cases progress with
      | replied reply => exact ⟨reply, margin', memory, state', inOrder', keeps, meets'⟩
      | waiting work =>
          have notFree : tariff.toll request ≠ .free := by
            intro free
            obtain ⟨_, replied⟩ := replies free
            cases replied
          exact Settles.later keeps (settles_of_waiting thrifty (fun load admits => answers load (keeps.admits admits))
            work inOrder' (Margin.open_of_paid paid notFree) (keeps.covers covers) meets')

/-- A script comes to its end if the queries that it meets are answered. -/
theorem finishes (thrifty : ∀ said moment, first.Leads client said moment → tariff.Thrifty said)
    {script : Script P φ (role.Outcome α)}
    (meets : Meets tariff client first (margin :: outer) ⟨role, script, below, memory, state⟩)
    (inOrder : scale.InOrder state) (covers : margin.Covers limit (scale.load state))
    (answers : ∀ load, margin.Admits limit load → scale.Answers client first load) :
    ∃ outcome margin' memory' state', scale.InOrder state' ∧
      Margin.Keeps margin (scale.load state) margin' (scale.load state') ∧
      Meets tariff client first (margin' :: outer) ⟨role, .done outcome, below, memory', state'⟩ := by
  induction script generalizing margin memory state with
  | done outcome => exact ⟨outcome, margin, memory, state, inOrder, .refl _ _, meets⟩
  | consult next ih => exact ih memory (meets.silently rfl) inOrder covers answers
  | remember memory next ih => exact ih (meets.silently rfl) inOrder covers answers
  | call request next ih =>
      obtain ⟨reply, margin', memory', state', inOrder', keeps, meets'⟩ :=
        settles thrifty answers inOrder covers meets
      obtain ⟨outcome, margin'', memory'', state'', inOrder'', keeps', meets''⟩ :=
        ih reply meets' inOrder' (keeps.covers covers) fun load admits => answers load (keeps.admits admits)
      exact ⟨outcome, margin'', memory'', state'', inOrder'', keeps.trans keeps', meets''⟩

theorem answers (scale : Scale tariff service)
    (thrifty : ∀ said moment, first.Leads client said moment → tariff.Thrifty said) (limit : Nat) :
    scale.Answers client first limit := by
  induction limit using Nat.strongRecOn with
  | ind limit ih =>
      intro request work role next below outer memory state inOrder within meets
      obtain ⟨answer, margin, memory', state', inOrder', keeps, meets'⟩ :=
        finishes thrifty meets inOrder (fun _ => within) ih
      refine ⟨answer, margin, memory', state', inOrder', ?_, meets'⟩
      cases keeps with
      | below _ bounded => exact Nat.le_trans (Nat.le_add_right _ _) bounded

/-- However deep a thrifty client calls back, every script comes to its end. -/
theorem ends (scale : Scale tariff service) {script : Script P φ α} (inOrder : scale.InOrder state)
    (thrifty : ∀ said moment, (opening script memory state : Moment service φ α).Leads client said moment →
      tariff.Thrifty said) : service.Ends client script memory state := by
  have meets : Meets tariff client (opening script memory state : Moment service φ α) [.unlimited]
      (opening script memory state) := ⟨[], .here, rfl⟩
  have covers : Margin.unlimited.Covers 0 (scale.load state) := trivial
  obtain ⟨outcome, _, memory', state', _, _, _, leads, _⟩ :=
    finishes thrifty meets inOrder covers fun load _ => scale.answers thrifty load
  obtain ⟨patience, ended⟩ := leads.runs (show Moment.run client 1 _ = some ⟨outcome, memory', state'⟩ from rfl)
  exact ⟨patience, _, ended⟩

end Scale

end MemoryBudget
