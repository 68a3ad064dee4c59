import MemoryBudget.Proofs.Dialogue.History
import MemoryBudget.Proofs.Dialogue.Versions

/-!
# What an attendant is asked

The queries that are put to an attendant while it attends a call or a script, one by one, each with the state in which
it finds the service. What every start of a call and every answer preserve holds at each query and in the end.
-/

set_option autoImplicit false

namespace MemoryBudget

variable {P : Protocol} {σ φ α : Type}

/-- What holds of each element of a list, given the elements before, holds with one element more. -/
theorem forall_parted_snoc {list : List α} {one : α} {holds : List α → α → Prop}
    (before : ∀ earlier other later, list = earlier ++ other :: later → holds earlier other) (last : holds list one) :
    ∀ earlier other later, list ++ [one] = earlier ++ other :: later → holds earlier other := by
  intro earlier other later parted
  rcases List.eq_nil_or_concat later with rfl | ⟨between, final, rfl⟩
  · obtain ⟨rfl, same⟩ := List.append_inj' parted rfl
    cases same
    exact last
  · rw [List.concat_eq_append, ← List.cons_append, ← List.append_assoc] at parted
    obtain ⟨rfl, _⟩ := List.append_inj' parted rfl
    exact before earlier other between rfl

namespace Service

theorem forall_outstanding {service : Service P σ} {request : P.Call}
    {progress : Progress (service.Work request) (P.Reply request)} {holds : service.Pending → Prop}
    (waits : ∀ work, progress = .waiting work → holds ⟨request, work⟩) :
    ∀ pending ∈ service.outstanding progress, holds pending := by
  intro pending member
  cases progress with
  | replied reply => nomatch member
  | waiting work =>
      rw [List.mem_singleton.mp member]
      exact waits work rfl

structure Inquiry (service : Service P σ) (φ : Type) extends Pending service where
  state : σ
  memory : φ

variable (service : Service P σ) (attendant : Attendant P σ φ)

def Inquiry.answered {service : Service P σ} (attendant : Attendant P σ φ) (inquiry : service.Inquiry φ) :
    P.Answer (service.query inquiry.work) × σ × φ :=
  attendant.answer (service.query inquiry.work) inquiry.state inquiry.memory

def Inquiry.resumed {service : Service P σ} (attendant : Attendant P σ φ) (inquiry : service.Inquiry φ) :
    Progress (service.Work inquiry.request) (P.Reply inquiry.request) × σ :=
  service.resume inquiry.work (inquiry.answered attendant).1 (inquiry.answered attendant).2.1

def inquiriesWhile {request : P.Call} (work : service.Work request) (state : σ) (memory : φ) :
    List (service.Inquiry φ) :=
  let answered := attendant.answer (service.query work) state memory
  ⟨⟨request, work⟩, state, memory⟩ ::
    match _progressed : service.resume work answered.1 answered.2.1 with
    | (.replied _, _) => []
    | (.waiting later, state) => inquiriesWhile later state answered.2.2
termination_by (service.phase work, service.backlog work)
decreasing_by
  rcases service.advances work _ _ _ _ _progressed with fewer | ⟨same, fewer⟩
  · exact Prod.Lex.left _ _ fewer
  · rw [same]
    exact Prod.Lex.right _ fewer

def inquiriesOf (request : P.Call) (state : σ) (memory : φ) : List (service.Inquiry φ) :=
  match service.start request state with
  | (.replied _, _) => []
  | (.waiting work, state) => service.inquiriesWhile attendant work state memory

def inquiries : Script P φ α → φ → σ → List (service.Inquiry φ)
  | .done _, _, _ => []
  | .consult next, memory, state => inquiries (next memory) memory state
  | .remember memory next, _, state => inquiries next memory state
  | .call request next, memory, state =>
      let (reply, state', memory') := service.perform attendant request state memory
      service.inquiriesOf attendant request state memory ++ inquiries (next reply) memory' state'

variable {service attendant}

theorem inquiries_of_replied {request : P.Call} {work : service.Work request} {state : σ} {memory : φ}
    {reply : P.Reply request} {state' : σ}
    (progressed : service.resume work (attendant.answer (service.query work) state memory).1
      (attendant.answer (service.query work) state memory).2.1 = (.replied reply, state')) :
    service.inquiriesWhile attendant work state memory = [⟨⟨request, work⟩, state, memory⟩] := by
  rw [inquiriesWhile]
  split
  · rfl
  · rename_i progressed'
    rw [progressed] at progressed'
    cases progressed'

theorem inquiries_of_waiting {request : P.Call} {work later : service.Work request} {state : σ} {memory : φ}
    {state' : σ}
    (progressed : service.resume work (attendant.answer (service.query work) state memory).1
      (attendant.answer (service.query work) state memory).2.1 = (.waiting later, state')) :
    service.inquiriesWhile attendant work state memory =
      ⟨⟨request, work⟩, state, memory⟩ :: service.inquiriesWhile attendant later state'
        (attendant.answer (service.query work) state memory).2.2 := by
  rw [inquiriesWhile]
  split
  · rename_i progressed'
    rw [progressed] at progressed'
    cases progressed'
  · rename_i progressed'
    rw [progressed] at progressed'
    cases progressed'
    rfl

/-- A call that has its reply at once asks nothing. -/
theorem no_inquiries_of_replied {request : P.Call} {state state' : σ} {memory : φ} {reply : P.Reply request}
    (started : service.start request state = (.replied reply, state')) :
    service.inquiriesOf attendant request state memory = [] := by
  rw [inquiriesOf, started]

/-! ## What holds at each query -/

variable {holds : List (service.Inquiry φ) → σ → List service.Pending → Prop}

/-- What every answer preserves holds when a call has its reply. -/
theorem finish_inquires
    (answered : ∀ seen (inquiry : service.Inquiry φ), holds seen inquiry.state [inquiry.toPending] →
      holds (seen ++ [inquiry]) (inquiry.resumed attendant).2
        (service.outstanding (inquiry.resumed attendant).1))
    {request : P.Call} (work : service.Work request) (state : σ) (memory : φ) {seen : List (service.Inquiry φ)}
    (before : holds seen state [⟨request, work⟩]) :
    holds (seen ++ service.inquiriesWhile attendant work state memory)
      (service.finish attendant work state memory).2.1 [] := by
  induction work, state, memory using Service.finish.induct service attendant generalizing seen with
  | case1 work state memory given reply state' =>
      rename_i progressed
      have after := answered seen ⟨⟨request, work⟩, state, memory⟩ before
      have resumed : Inquiry.resumed attendant ⟨⟨request, work⟩, state, memory⟩ = (.replied reply, state') := progressed
      rw [resumed] at after
      rw [inquiries_of_replied progressed, finish_of_replied service attendant work state memory progressed]
      exact after
  | case2 work state memory given later state' =>
      rename_i progressed ih
      have after := answered seen ⟨⟨request, work⟩, state, memory⟩ before
      have resumed : Inquiry.resumed attendant ⟨⟨request, work⟩, state, memory⟩ = (.waiting later, state') := progressed
      rw [resumed] at after
      rw [inquiries_of_waiting progressed, finish_of_waiting service attendant work state memory progressed,
        List.append_cons]
      exact ih after

theorem perform_inquires
    (answered : ∀ seen (inquiry : service.Inquiry φ), holds seen inquiry.state [inquiry.toPending] →
      holds (seen ++ [inquiry]) (inquiry.resumed attendant).2
        (service.outstanding (inquiry.resumed attendant).1))
    (request : P.Call) (state : σ) (memory : φ) {seen : List (service.Inquiry φ)}
    (started : holds seen (service.start request state).2 (service.outstanding (service.start request state).1)) :
    holds (seen ++ service.inquiriesOf attendant request state memory)
      (service.perform attendant request state memory).2.1 [] := by
  rw [inquiriesOf]
  cases begun : service.start request state with
  | mk progress state' =>
      rw [begun] at started
      cases progress with
      | replied reply =>
          rw [perform_of_replied service attendant state memory begun, List.append_nil]
          exact started
      | waiting work =>
          rw [perform_of_waiting service attendant work state memory begun]
          exact finish_inquires answered work state' memory started

/-- What every start of a call and every answer preserve holds after a script. -/
theorem attend_inquires
    (started : ∀ seen request state, holds seen state [] →
      holds seen (service.start request state).2 (service.outstanding (service.start request state).1))
    (answered : ∀ seen (inquiry : service.Inquiry φ), holds seen inquiry.state [inquiry.toPending] →
      holds (seen ++ [inquiry]) (inquiry.resumed attendant).2
        (service.outstanding (inquiry.resumed attendant).1))
    (script : Script P φ α) (memory : φ) (state : σ) {seen : List (service.Inquiry φ)} (before : holds seen state []) :
    holds (seen ++ service.inquiries attendant script memory state)
      (service.attend attendant script memory state).2.2 [] := by
  induction script generalizing memory state seen with
  | done result =>
      rw [inquiries, List.append_nil]
      exact before
  | consult next ih => exact ih memory memory state before
  | remember fresh next ih => exact ih fresh state before
  | call request next ih =>
      have performed := perform_inquires answered request state memory (started seen request state before)
      rw [inquiries, attend, ← List.append_assoc]
      exact ih _ _ _ performed

end Service

end MemoryBudget
