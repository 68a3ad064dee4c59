import MemoryBudget.Proofs.Dialogue.History
import MemoryBudget.Proofs.Shared.Steps
import MemoryBudget.Shared.Clients
import Mathlib

/-!
# What is reported and what is counted

Each entry that leaves a cache of shared values is reported once, by the call that made it leave and to the listener
that is installed at that moment. Between calls each allocation counts the handles of the clients and of the resident
entries. Listeners may call back and may be replaced at any time.
-/

set_option autoImplicit false

namespace MemoryBudget

namespace Shared

open Lru

variable {κ ν ℓ φ β : Type}

/-! ## Who reports what to whom -/

structure Report (ℓ : Type) where
  /-- The number of the call that makes it. -/
  call : Option Nat
  listener : ℓ
  /-- The listener that is installed at that moment. -/
  installed : Option ℓ
  handle : Handle

/-- What can be told about the reports by listening only. Calls are numbered in the order in which they are made. -/
structure Register (ℓ : Type) where
  calls : Nat
  /-- The numbers of the calls in progress, innermost first. -/
  inProgress : List Nat
  /-- The listener that was installed last. -/
  installed : Option ℓ
  reports : List (Report ℓ)

namespace Register

def blank : Register ℓ := { calls := 0, inProgress := [], installed := none, reports := [] }

/-- A report is made by the innermost call in progress. -/
def hear (register : Register ℓ) : Utterance (protocol κ ν ℓ) → Register ℓ
  | .called request =>
      { register with
        calls := register.calls + 1
        inProgress := register.calls :: register.inProgress
        installed := request.installs.or register.installed }
  | .replied _ _ => { register with inProgress := register.inProgress.tail }
  | .asked (.removed listener handle) =>
      { register with
        reports := register.reports ++ [⟨register.inProgress.head?, listener, register.installed, handle⟩] }
  | .answered _ _ => register

def reportedBy (register : Register ℓ) (number : Nat) : List Handle :=
  (register.reports.filter (·.call == some number)).map (·.handle)

end Register

def registerOf (said : List (Utterance (protocol κ ν ℓ))) : Register ℓ :=
  said.foldl Register.hear Register.blank

theorem register_of_append (said more : List (Utterance (protocol κ ν ℓ))) :
    registerOf (said ++ more) = more.foldl Register.hear (registerOf said) :=
  List.foldl_append

variable [BEq κ] [Hashable κ]

/-- What a call has to report: the handles that leave because of it, if there is a listener when it is made. -/
def owed (call : Call κ ν ℓ × State κ ν ℓ) : List Handle :=
  if call.2.listener.isSome then
    released call.1 call.2.store.entries (start call.1 call.2).2.store.entries
  else
    []

/-- The calls that report nothing, or nothing about the entry under their own key. -/
structure Spared (call : Call κ ν ℓ × State κ ν ℓ) : Prop where
  removed : ∀ key, call.1 = .remove key → owed call = []
  refused : ∀ key handle, call.1 = .put key → call.2.custody.inHand.head? = some handle →
    call.2.store.limit ≤ handle.size → owed call = []
  /-- A handle to the same allocation, of whatever size, takes the place of the entry without a report. -/
  refreshed : ∀ key handle, call.1 = .put key → call.2.custody.inHand.head? = some handle →
    (∀ entry ∈ call.2.store.entries, (entry.key == key) = true → (entry.value == handle) = true) →
      (owed call).Sublist (values (call.2.store.entries.filter (!·.key == key)))

theorem owed_of_nothing {call : Call κ ν ℓ × State κ ν ℓ}
    (nothing : released call.1 call.2.store.entries (start call.1 call.2).2.store.entries = []) : owed call = [] := by
  rw [owed, nothing, ite_self]

variable [EquivBEq κ] [LawfulHashable κ]

theorem spared_of_sound {call : Call κ ν ℓ × State κ ν ℓ} {elsewhere : List Handle}
    (sound : Sound [] call.2 elsewhere) : Spared call := by
  obtain ⟨request, state⟩ := call
  constructor
  · intro key isRemove
    cases isRemove
    exact owed_of_nothing rfl
  · intro key handle isPut inHand tooLarge
    cases isPut
    apply owed_of_nothing
    show departed state.store.entries _ = []
    rw [put_store inHand key]
    rcases sound.intact.exchange_cases ⟨key, handle, handle.size⟩ with ⟨_, refused⟩ | ⟨affordable, _⟩
    · rw [refused]
      exact departed_of_perm (List.Perm.refl _)
    · exact absurd tooLarge affordable
  · intro key handle isPut inHand sameHandle
    cases isPut
    unfold owed
    split
    · show (departed state.store.entries _).Sublist _
      apply departed_sublist
      intro entry member sameKey
      rw [put_store inHand key]
      rcases sound.intact.exchange_cases ⟨key, handle, handle.size⟩ with
        ⟨_, refused⟩ | ⟨_, evicted, store, _, admitted, kept, fresh, _⟩
      · rw [refused]
        exact stays_as_it_is member
      · rw [admitted]
        have first : (⟨key, handle, handle.size⟩ : Entry κ Handle) ∈ store.entries := by
          rw [fresh]
          exact List.mem_cons_self
        refine ⟨_, first, BEq.symm sameKey, ?_⟩
        rw [handle_beq_comm]
        exact sameHandle entry member sameKey
    · exact List.nil_sublist _

/-! ## One step -/

/-- The handles that are still to be reported by a call, if the calls in progress have these numbers. -/
def pendingBy (number : Nat) : List Nat → List (service (κ := κ) (ν := ν) (ℓ := ℓ)).Pending → List Handle
  | other :: numbers, pending :: works =>
      (if other = number then Work.pending pending.work else []) ++ pendingBy number numbers works
  | _, _ => []

section Steps

variable {register : Register ℓ} {calls : List (Call κ ν ℓ × State κ ν ℓ)} {state state' : State κ ν ℓ}
  {works : List (service (κ := κ) (ν := ν) (ℓ := ℓ)).Pending} {request : Call κ ν ℓ}
  {progress : Progress (Work request) ((protocol κ ν ℓ).Reply request)}

omit [EquivBEq κ] [LawfulHashable κ] in
/-- What is due to be reported by a call is reported or still to be reported, once the call is heard of. -/
theorem reported_or_pending {number : Nat} {numbers : List Nat} (inner : register.inProgress = number :: numbers)
    (other : Nat) :
    (register.hear (service.announce request progress)).reportedBy other ++
        pendingBy other (register.hear (service.announce request progress)).inProgress
          (service.outstanding progress ++ works) =
      register.reportedBy other ++
        ((if number = other then due progress else []) ++ pendingBy other numbers works) := by
  cases progress with
  | replied reply =>
      show register.reportedBy other ++ pendingBy other register.inProgress.tail works = _
      rw [inner, due, ite_self]
      rfl
  | waiting work =>
      show (List.filter _ (register.reports ++ [⟨register.inProgress.head?, _, _, work.reported⟩])).map _ ++
        pendingBy other register.inProgress (⟨request, work⟩ :: works) = _
      rw [inner, List.filter_append, List.map_append, pendingBy, due, Register.reportedBy, List.append_assoc]
      by_cases same : number = other
      · simp [same]
      · simp [same]

omit [EquivBEq κ] [LawfulHashable κ] in
theorem pending_of_absent {number : Nat} {numbers : List Nat} (absent : ∀ other ∈ numbers, other < number) :
    pendingBy number numbers works = [] := by
  induction numbers generalizing works with
  | nil => rfl
  | cons other numbers ih =>
      rw [List.forall_mem_cons] at absent
      cases works with
      | nil => rfl
      | cons pending works =>
          rw [pendingBy, if_neg (Nat.ne_of_lt absent.1), ih absent.2]
          rfl

structure Known (register : Register ℓ) (calls : List (Call κ ν ℓ × State κ ν ℓ)) (state : State κ ν ℓ) : Prop where
  listener : state.listener = register.installed
  counted : register.calls = calls.length
  numbers : ∀ number ∈ register.inProgress, number < calls.length
  reports : ∀ report ∈ register.reports,
    report.installed = some report.listener ∧ ∃ number < calls.length, report.call = some number
  spared : ∀ call ∈ calls, Spared call

structure Recorded (register : Register ℓ) (calls : List (Call κ ν ℓ × State κ ν ℓ)) (state : State κ ν ℓ)
    (works : List (service (κ := κ) (ν := ν) (ℓ := ℓ)).Pending) : Prop extends Known register calls state where
  sound : Sound [] state (waiting works)
  /-- Without a listener no call waits. -/
  listening : works ≠ [] → state.listener.isSome
  numbered : register.inProgress.length = works.length
  owed : ∀ number call, calls[number]? = some call →
    (register.reportedBy number ++ pendingBy number register.inProgress works).Perm (owed call)

omit [EquivBEq κ] [LawfulHashable κ] in
/-- The next call has not reported anything. -/
theorem Known.next_reported (known : Known register calls state) : register.reportedBy calls.length = [] := by
  unfold Register.reportedBy
  rw [List.filter_eq_nil_iff.mpr]
  · rfl
  · intro report member same
    obtain ⟨_, number, made, reporter⟩ := known.reports report member
    rw [reporter, beq_iff_eq] at same
    cases same
    exact Nat.lt_irrefl _ made

omit [EquivBEq κ] [LawfulHashable κ] in
/-- A call that has progressed, and is then heard of. -/
theorem Known.announced (known : Known register calls state) {number : Nat} {numbers : List Nat}
    (inner : register.inProgress = number :: numbers) (sound : Sound [] state (held progress ++ waiting works))
    (recipient : ∀ work, progress = .waiting work → state.listener = some work.listener)
    (listening : works ≠ [] → state.listener.isSome) (numbered : numbers.length = works.length)
    (owed : ∀ other call, calls[other]? = some call → (register.reportedBy other ++
      ((if number = other then due progress else []) ++ pendingBy other numbers works)).Perm (owed call)) :
    Recorded (register.hear (service.announce request progress)) calls state
      (service.outstanding progress ++ works) := by
  have sound' : Sound [] state (waiting (service.outstanding progress ++ works)) := by
    rw [waiting_outstanding]
    exact sound
  have owed' : ∀ other call, calls[other]? = some call →
      ((register.hear (service.announce request progress)).reportedBy other ++
        pendingBy other (register.hear (service.announce request progress)).inProgress
          (service.outstanding progress ++ works)).Perm (Shared.owed call) := by
    intro other call made
    rw [reported_or_pending inner]
    exact owed other call made
  obtain ⟨listener, counted, issued, reports, spared⟩ := known
  cases progress with
  | replied reply =>
      have rest : register.inProgress.tail = numbers := by
        rw [inner]
        rfl
      refine ⟨⟨listener, counted, ?_, reports, spared⟩, sound', listening, ?_, owed'⟩
      · exact fun other member => issued other (List.mem_of_mem_tail member)
      · show register.inProgress.tail.length = works.length
        rw [rest]
        exact numbered
  | waiting work =>
      refine ⟨⟨listener, counted, issued, ?_, spared⟩, sound', ?_, ?_, owed'⟩
      · intro report member
        rcases List.mem_append.mp member with old | fresh
        · exact reports report old
        · rw [List.mem_singleton.mp fresh]
          constructor
          · show register.installed = some work.listener
            rw [← listener]
            exact recipient work rfl
          · rw [inner] at issued ⊢
            exact ⟨number, issued number List.mem_cons_self, rfl⟩
      · intro _
        rw [recipient work rfl]
        rfl
      · show register.inProgress.length = works.length + 1
        rw [inner, List.length_cons, numbered]

theorem Recorded.started (recorded : Recorded register calls state works) (request : Call κ ν ℓ) :
    Recorded ((register.hear (.called request)).hear (service.announce request (start request state).1))
      (calls ++ [(request, state)]) (start request state).2
      (service.outstanding (start request state).1 ++ works) := by
  have starts := start_meets recorded.sound request
  have known : Known (register.hear (.called request)) (calls ++ [(request, state)]) (start request state).2 := by
    constructor
    · rw [starts.listener, recorded.listener]
      rfl
    · rw [List.length_append]
      exact congrArg (· + 1) recorded.counted
    · intro number member
      rw [List.length_append]
      rcases List.mem_cons.mp member with rfl | old
      · rw [recorded.counted]
        exact Nat.lt_succ_self _
      · exact Nat.lt_succ_of_lt (recorded.numbers number old)
    · intro report member
      obtain ⟨recipient, number, made, same⟩ := recorded.reports report member
      rw [List.length_append]
      exact ⟨recipient, number, Nat.lt_succ_of_lt made, same⟩
    · intro call member
      rcases List.mem_append.mp member with old | fresh
      · exact recorded.spared call old
      · rw [List.mem_singleton.mp fresh]
        exact spared_of_sound recorded.sound
  apply known.announced rfl starts.sound starts.recipient
  · intro busy
    rw [starts.listener, Option.isSome_or, recorded.listening busy, Bool.or_true]
  · exact recorded.numbered
  · intro other call made
    have inRange : other < calls.length + 1 := by
      have bound := (List.getElem?_eq_some_iff.mp made).1
      rwa [List.length_append] at bound
    rcases Nat.lt_succ_iff_lt_or_eq.mp inRange with earlier | rfl
    · rw [List.getElem?_append_left earlier] at made
      rw [if_neg (by rw [recorded.counted]; exact Nat.ne_of_gt earlier)]
      exact recorded.owed other call made
    · rw [List.getElem?_concat_length] at made
      cases made
      have unreported : (register.hear (.called request)).reportedBy calls.length = [] := recorded.next_reported
      rw [unreported, pending_of_absent recorded.numbers, if_pos recorded.counted, List.append_nil, List.nil_append]
      exact starts.due

omit [EquivBEq κ] [LawfulHashable κ] in
theorem Recorded.resumed {work : Work request}
    (recorded : Recorded register calls state (⟨request, work⟩ :: works : List service.Pending)) :
    Recorded (register.hear (service.announce request (resume work () state).1)) calls (resume work () state).2
      (service.outstanding (resume work () state).1 ++ works) := by
  have reports := resume_reports work state
  have installed := recorded.listening (List.cons_ne_nil _ _)
  obtain ⟨number, numbers, inner⟩ : ∃ number numbers, register.inProgress = number :: numbers := by
    apply List.exists_cons_of_length_eq_add_one
    exact recorded.numbered
  have sound : Sound [] state (work.pending ++ (work.returning.toList ++ waiting works)) := by
    rw [← List.append_assoc]
    exact recorded.sound
  have known : Known register calls (resume work () state).2 :=
    { recorded with listener := reports.listener.trans recorded.listener }
  apply known.announced inner (reports.sound sound)
  · intro later waits
    rw [reports.listener]
    exact reports.recipient later waits
  · intro _
    rw [reports.listener]
    exact installed
  · have numbered := recorded.numbered
    rw [inner] at numbered
    exact Nat.succ.inj numbered
  · intro other call made
    have owed := recorded.owed other call made
    rw [inner] at owed
    rw [reports.queued, if_pos installed]
    exact owed

end Steps

/-! ## Whole dialogues -/

theorem recorded_of_advance (limit : UInt64) (client : Client (protocol κ ν ℓ) φ)
    (script : Script (protocol κ ν ℓ) φ β) (memory : φ) (steps : Nat) :
    let first : Moment service φ β := .opening script memory (State.ofLimit limit)
    Recorded (registerOf (first.advance client steps).1) (first.occasions client steps)
      (first.advance client steps).2.state (first.advance client steps).2.works := by
  intro first
  have initially : Recorded (registerOf ([] : List (Utterance (protocol κ ν ℓ)))) [] first.state first.works := by
    have known : Known (registerOf ([] : List (Utterance (protocol κ ν ℓ)))) [] first.state := by
      refine ⟨rfl, rfl, ?_, ?_, ?_⟩
      · exact fun _ member => absurd member List.not_mem_nil
      · exact fun _ member => absurd member List.not_mem_nil
      · exact fun _ member => absurd member List.not_mem_nil
    refine ⟨known, of_limit_sound limit, fun busy => absurd rfl busy, rfl, ?_⟩
    intro number call made
    rw [List.getElem?_nil] at made
    cases made
  apply first.advance_preserves client steps
    (fun said calls state works => Recorded (registerOf said) calls state works) _ _ initially
  · intro said calls state works request recorded
    rw [register_of_append]
    exact recorded.started request
  · intro said calls state works request work answer recorded
    rw [register_of_append]
    exact recorded.resumed

omit [BEq κ] [Hashable κ] [EquivBEq κ] [LawfulHashable κ] in
theorem total_cost_of_measured {entries : List (Entry κ Handle)}
    (measured : ∀ entry ∈ entries, entry.cost = entry.value.size) :
    RecencyList.totalCost entries = ((values entries).map (·.size.toNat)).sum := by
  induction entries with
  | nil => rfl
  | cons entry rest ih =>
      rw [List.forall_mem_cons] at measured
      rw [RecencyList.total_cost_cons, measured.1, ih measured.2]
      rfl

/-- Every report goes to the listener that is installed then. Between the calls of the client itself each call has
reported what left because of it, once, and nothing else, and each allocation counts the handles of the clients and of
the resident entries. -/
theorem every_departure_is_reported_once (limit : UInt64) (client : Client (protocol κ ν ℓ) φ)
    (script : Script (protocol κ ν ℓ) φ β) (memory : φ) (steps : Nat) :
    let first : Moment service φ β := .opening script memory (State.ofLimit limit)
    let dialogue := first.advance client steps
    let calls := first.occasions client steps
    let register := registerOf dialogue.1
    let state := dialogue.2.state
    (∀ report ∈ register.reports,
      report.installed = some report.listener ∧ ∃ number < calls.length, report.call = some number) ∧
    (∀ call ∈ calls, Spared call) ∧
    (∀ number call, calls[number]? = some call → ∃ pending, (register.reportedBy number ++ pending).Perm (owed call)) ∧
    (dialogue.2.role = .client →
      (∀ number call, calls[number]? = some call → (register.reportedBy number).Perm (owed call)) ∧
      (∀ handle, state.allocations.handles handle =
        reaching handle state.custody.handles + reaching handle (values state.store.entries)) ∧
      state.store.used.toNat = ((values state.store.entries).map (·.size.toNat)).sum) := by
  intro first dialogue calls register state
  have recorded : Recorded register calls state dialogue.2.works := recorded_of_advance limit client script memory steps
  refine ⟨recorded.reports, recorded.spared, fun number call made => ⟨_, recorded.owed number call made⟩, ?_⟩
  intro rest
  have idle : dialogue.2.works = [] := Moment.works_at_rest rest
  rw [idle] at recorded
  refine ⟨?_, ?_, ?_⟩
  · intro number call made
    have owed := recorded.owed number call made
    rw [List.eq_nil_of_length_eq_zero recorded.numbered] at owed
    rw [← List.append_nil (register.reportedBy number)]
    exact owed
  · intro handle
    rw [← reaching_append]
    have counted := recorded.sound.balanced.counts handle
    rw [show waiting [] = [] from rfl, List.append_nil] at counted
    exact counted
  · rw [recorded.sound.intact.exact_use]
    exact total_cost_of_measured recorded.sound.measured

/-- One allocation under two keys, with sizes of its own. Nothing is reported when its handle is put again or when a
handle is too large; a displacement and a `clear` make three reports, and the first listener has another one installed
before the others. -/
theorem three_reports_to_two_listeners :
    let script : Script (protocol Nat Nat Bool) Unit Unit := do
      request (.listen false)
      request (.make 7 3)
      let _ ← request (.name "shared")
      let _ ← request (.copy "shared" none)
      let _ ← request (.put 1)
      let _ ← request (.copy "shared" (some 4))
      let _ ← request (.put 2)
      let _ ← request (.copy "shared" (some 2))
      let _ ← request (.put 2)
      let _ ← request .drop
      request (.make 8 3)
      let _ ← request (.put 1)
      let _ ← request .drop
      request (.make 9 20)
      let _ ← request (.put 3)
      request .clear
    let client : Client (protocol Nat Nat Bool) Unit
      | .removed false _ => do
          request (.listen true)
          let _ ← request .putAside
      | .removed true _ => do
          let _ ← request .drop
    let first : Moment service Unit Unit := .opening script () (State.ofLimit 10)
    let dialogue := first.advance client 23
    let register := registerOf dialogue.1
    dialogue.2.role = .client ∧
    (register.reports.map fun report => (report.call, report.listener, report.installed)) =
      [(some 11, false, some false), (some 17, true, some true), (some 17, true, some true)] ∧
    (∀ number call, (first.occasions client 23)[number]? = some call →
      (register.reportedBy number).Perm (owed call)) ∧
    -- One has a name and the other was put aside.
    reaching ⟨0, 3⟩ dialogue.2.state.custody.handles +
      reaching ⟨0, 3⟩ (values dialogue.2.state.store.entries) = 2 := by
  intro script client first dialogue register
  obtain ⟨_, _, _, settled⟩ := every_departure_is_reported_once 10 client script () 23
  have rest : dialogue.2.role = .client := by cbv
  obtain ⟨reported, counts, _⟩ := settled rest
  have heard : ((registerOf dialogue.1).reports.map fun report => (report.call, report.listener, report.installed)) =
      [(some 11, false, some false), (some 17, true, some true), (some 17, true, some true)] := by cbv
  refine ⟨rest, heard, reported, ?_⟩
  have alive : dialogue.2.state.allocations.handles ⟨0, 3⟩ = 2 := by cbv
  rw [← counts ⟨0, 3⟩]
  exact alive

end Shared

end MemoryBudget
