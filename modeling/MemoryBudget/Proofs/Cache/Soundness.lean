import MemoryBudget.Cache.Clients
import MemoryBudget.Proofs.Cache.Steps
import MemoryBudget.Proofs.Dialogue.History
import Mathlib

/-!
# Budgets that hold throughout

Whatever a client asks for, and whatever it calls back for while a call of its own waits, a cache accounts for each
word it has in use: at every moment the use is the exact sum of the costs that were answered when the resident
entries were admitted, within the limit, and no step that an operation could take from there fails.
-/

set_option autoImplicit false

namespace MemoryBudget

namespace Lru

open RecencyList

variable {κ α : Type} [BEq κ] [Hashable κ]

/-- Whatever is done next, no size leaves its word, no link is broken and no use is left unexplained. -/
structure Faultless (store : Lru κ α) : Prop where
  lookup : ∀ key, ∃ found, store.lookup? key = .ok found
  touch : ∀ key, ∃ outcome, store.touch? key = .ok outcome
  remove : ∀ key, ∃ outcome, store.remove? key = .ok outcome
  trim : ∀ target, ∃ outcome, store.trimTo? target = .ok outcome
  rescale : ∀ multiplier budget, store.budget.rescale multiplier = .ok budget →
    ∃ outcome, trimTo? { store with budget := budget } budget.limit = .ok outcome
  insert : ∀ entry, ∃ outcome, store.insert? entry = .ok outcome
  /-- The room that an insertion asks for is a difference that does not wrap. -/
  room : ∀ (entry : Entry κ α) (previous : Option (Entry κ α)) (cleared : Lru κ α), ¬ store.limit ≤ entry.cost →
    store.remove? entry.key = .ok (previous, cleared) → entry.cost ≤ cleared.limit
  /-- Clearing runs through and leaves nothing in use. -/
  clear : store.clear? = .ok store.clear ∧ store.clear.2.used = 0 ∧ store.clear.2.entries = []

variable [EquivBEq κ] [LawfulHashable κ]

theorem Intact.room {store : Lru κ α} (intact : Intact store) {entry : Entry κ α}
    {previous : Option (Entry κ α)} {cleared : Lru κ α} (affordable : ¬ store.limit ≤ entry.cost)
    (removed : store.remove? entry.key = .ok (previous, cleared)) : entry.cost ≤ cleared.limit := by
  obtain ⟨store', success, meant, _⟩ := intact.remove_checked entry.key
  rw [removed] at success
  have same : cleared = store' := congrArg Prod.snd (Except.ok.inj success)
  have limitKept : cleared.limit = store.limit := by
    rw [same]
    exact congrArg RecencyList.limit meant
  rw [limitKept]
  exact UInt64.le_of_lt (UInt64.not_le.mp affordable)

theorem Intact.clear_exhausts {store : Lru κ α} (intact : Intact store) :
    store.clear? = .ok store.clear ∧ store.clear.2.used = 0 ∧ store.clear.2.entries = [] := by
  obtain ⟨_, state, intact'⟩ := intact.clear_agrees
  have empty : store.clear.2.entries = [] := congrArg RecencyList.entries state
  refine ⟨intact.clear_ok, UInt64.toNat.inj ?_, empty⟩
  rw [intact'.exact_use, empty]
  rfl

theorem Intact.faultless {store : Lru κ α} (intact : Intact store) : Faultless store where
  lookup key := ⟨_, intact.lookup key⟩
  touch key := (intact.touch key).succeeds
  remove key := (intact.remove_checked key).succeeds
  trim target := (intact.trim_checked target).succeeds
  rescale multiplier budget scaled := by
    rw [Budget.rescale] at scaled
    cases valid : multiplier.validate with
    | error invalid =>
        rw [valid] at scaled
        cases scaled
    | ok _ =>
        rw [valid] at scaled
        cases scaled
        exact (intact.rescale_checked _).succeeds
  insert entry := (intact.insert_checked entry).succeeds
  room _ _ _ affordable removed := intact.room affordable removed
  clear := intact.clear_exhausts

end Lru

namespace Cache

open Lru RecencyList

variable {κ α φ β : Type}

/-! ## What a listener can tell -/

/-- What is known from listening: the calls in progress, innermost first, and the entries that were admitted, the
latest first. -/
structure Register (κ α : Type) where
  calls : List (Call κ α)
  admitted : List (Entry κ α)

namespace Register

/-- A put is admitted at the price that answers it, and struck out again if it is refused. -/
def hear (register : Register κ α) : Utterance (protocol κ α) → Register κ α
  | .called request => { register with calls := request :: register.calls }
  | .replied _ _ => { register with calls := register.calls.tail }
  | .asked (.price _) => register
  | .asked (.departed departure) =>
      match departure.cause with
      | .refused => { register with admitted := register.admitted.tail }
      | .displaced | .evicted => register
  | .answered (.price _) cost =>
      match register.calls with
      | .put key value :: _ => { register with admitted := ⟨key, value, cost⟩ :: register.admitted }
      | _ => register
  | .answered (.departed _) _ => register

def ofSaid (said : List (Utterance (protocol κ α))) : Register κ α :=
  said.foldl hear ⟨[], []⟩

theorem of_said_append (said more : List (Utterance (protocol κ α))) :
    ofSaid (said ++ more) = more.foldl hear (ofSaid said) :=
  List.foldl_append

end Register

variable [BEq κ] [Hashable κ]

structure Accountable (said : List (Utterance (protocol κ α))) (store : Lru κ α) : Prop where
  exactUse : store.used.toNat = totalCost store.entries
  withinLimit : store.used ≤ store.limit
  exactCount : store.count = store.entries.length
  distinctKeys : DistinctKeys store.entries
  present : ∀ key, store.contains key = true ↔ ∃ entry ∈ store.entries, (entry.key == key) = true
  /-- A resident entry is the last one that was admitted under its key, at the cost that was answered then. -/
  admitted : ∀ entry ∈ store.entries,
    (Register.ofSaid said).admitted.find? (·.key == entry.key) = some entry

/-- No departure that is still to be told is a refusal: a refusal is told at once, and it is told alone. -/
def Unrefused (departures : List (Departure κ α)) : Prop :=
  ∀ departure ∈ departures, departure.cause ≠ .refused

omit [BEq κ] [Hashable κ] in
theorem evictions_unrefused (entries : List (Entry κ α)) : Unrefused (evictions entries) := by
  intro departure member
  obtain ⟨entry, _, rfl⟩ := List.mem_map.mp member
  exact fun refused => nomatch refused

omit [BEq κ] [Hashable κ] in
theorem displacement_unrefused [BEq α] (previous : Option (Entry κ α)) (key : κ) (value : α) :
    Unrefused (displacement previous key value) := by
  intro departure member
  obtain ⟨entry, _, rfl⟩ := List.mem_map.mp member
  exact fun refused => nomatch refused

structure Recorded [BEq α] (said : List (Utterance (protocol κ α))) (store : Lru κ α)
    (works : List (Service.Pending (service (κ := κ) (α := α)))) : Prop where
  intact : Intact store
  calls : (Register.ofSaid said).calls = works.map (·.request)
  unrefused : ∀ pending ∈ works, Unrefused (Work.remaining pending.work)
  admitted : ∀ entry ∈ store.entries,
    (Register.ofSaid said).admitted.find? (·.key == entry.key) = some entry

theorem hear_tell [BEq α] {register : Register κ α} {request : Call κ α} {rest : List (protocol κ α).Call}
    (reply : (protocol κ α).Reply request) {departures : List (Departure κ α)}
    (calls : register.calls = request :: rest) (unrefused : Unrefused departures) :
    (register.hear (service.announce request (tell reply departures))).admitted = register.admitted ∧
      (register.hear (service.announce request (tell reply departures))).calls =
        (service.outstanding (tell reply departures)).map (·.request) ++ rest ∧
      ∀ pending ∈ service.outstanding (tell reply departures), Unrefused (Work.remaining pending.work) := by
  cases departures with
  | nil => exact ⟨rfl, congrArg List.tail calls, fun _ member => nomatch member⟩
  | cons departure later =>
      have kept : register.hear (.asked (.departed departure)) = register := by
        rw [Register.hear]
        cases cause : departure.cause with
        | refused => exact absurd cause (unrefused departure List.mem_cons_self)
        | displaced => rfl
        | evicted => rfl
      refine ⟨congrArg Register.admitted kept, (congrArg Register.calls kept).trans calls, ?_⟩
      intro pending member
      cases List.mem_singleton.mp member
      exact fun other member => unrefused other (List.mem_cons_of_mem _ member)

/-- What is kept up through a change of the entries after which departures are told. -/
theorem Recorded.told [BEq α] {said : List (Utterance (protocol κ α))} {store' : Lru κ α}
    {rest : List (Service.Pending (service (κ := κ) (α := α)))} {register : Register κ α}
    {request : Call κ α} (reply : (protocol κ α).Reply request) {departures : List (Departure κ α)}
    {utterance : Utterance (protocol κ α)}
    (heard : (Register.ofSaid said).hear utterance = register)
    (calls : register.calls = request :: rest.map (·.request)) (unrefused : Unrefused departures)
    (waiting : ∀ pending ∈ rest, Unrefused (Work.remaining pending.work)) (intact : Intact store')
    (admitted : ∀ entry ∈ store'.entries, register.admitted.find? (·.key == entry.key) = some entry) :
    Recorded (said ++ [utterance, service.announce request (tell reply departures)]) store'
      (service.outstanding (tell reply departures) ++ rest) := by
  obtain ⟨sameAdmitted, sameCalls, remaining⟩ := hear_tell reply calls unrefused
  have after : Register.ofSaid (said ++ [utterance, service.announce request (tell reply departures)]) =
      register.hear (service.announce request (tell reply departures)) := by
    rw [Register.of_said_append, ← heard]
    rfl
  refine ⟨intact, ?_, ?_, ?_⟩
  · rw [after, List.map_append]
    exact sameCalls
  · intro pending member
    rcases List.mem_append.mp member with fresh | old
    · exact remaining pending fresh
    · exact waiting pending old
  · rw [after, sameAdmitted]
    exact admitted

theorem Recorded.started [BEq α] {said : List (Utterance (protocol κ α))} {store : Lru κ α}
    {works : List (Service.Pending (service (κ := κ) (α := α)))} (recorded : Recorded said store works)
    {request : Call κ α} {progressed : Progress (Work request) ((protocol κ α).Reply request) × Lru κ α}
    (starts : Starts store request progressed) :
    Recorded (said ++ [.called request, service.announce request progressed.1]) progressed.2
      (service.outstanding progressed.1 ++ works) := by
  have calls : ((Register.ofSaid said).hear (.called request)).calls = request :: works.map (·.request) :=
    congrArg (request :: ·) recorded.calls
  have none : Unrefused ([] : List (Departure κ α)) := fun _ member => nomatch member
  cases starts with
  | prices key value =>
      refine ⟨recorded.intact, ?_, ?_, ?_⟩
      · rw [Register.of_said_append]
        exact calls
      · intro pending member
        rcases List.mem_cons.mp member with rfl | old
        · exact none
        · exact recorded.unrefused pending old
      · rw [Register.of_said_append]
        exact recorded.admitted
  | replies request quiet reply same intact =>
      exact Recorded.told reply rfl calls none recorded.unrefused intact fun entry member =>
        recorded.admitted entry (same.subset member)
  | removes key rest intact =>
      refine Recorded.told _ rfl calls none recorded.unrefused intact fun entry member => ?_
      rw [rest] at member
      exact recorded.admitted entry (List.mem_of_mem_filter member)
  | evicts request quiet reply parted intact =>
      refine Recorded.told reply rfl calls (evictions_unrefused _) recorded.unrefused intact fun entry member => ?_
      refine recorded.admitted entry ?_
      rw [parted]
      exact List.mem_append_left _ member

omit [BEq κ] [Hashable κ] in
theorem hear_price {register : Register κ α} {key : κ} {value : α} {rest : List (protocol κ α).Call}
    (calls : register.calls = .put key value :: rest) (cost : UInt64) :
    register.hear (.answered (.price value) cost) =
      { register with admitted := ⟨key, value, cost⟩ :: register.admitted } := by
  obtain ⟨listed, admitted⟩ := register
  cases calls
  rfl

theorem Recorded.resumed [BEq α] [EquivBEq κ] {said : List (Utterance (protocol κ α))} {store : Lru κ α}
    {works : List (Service.Pending (service (κ := κ) (α := α)))} {request : Call κ α} {work : Work request}
    {answer : (protocol κ α).Answer work.query} (recorded : Recorded said store (⟨request, work⟩ :: works))
    {progressed : Progress (Work request) ((protocol κ α).Reply request) × Lru κ α}
    (resumes : Resumes store work answer progressed) :
    Recorded (said ++ [.answered (service.query work) answer, service.announce request progressed.1]) progressed.2
      (service.outstanding progressed.1 ++ works) := by
  obtain ⟨intact, calls, unrefused, admitted⟩ := recorded
  have waiting : ∀ pending ∈ works, Unrefused (Work.remaining pending.work) :=
    fun pending member => unrefused pending (List.mem_cons_of_mem _ member)
  cases resumes with
  | refuses key value cost tooCostly =>
      have heard : Register.ofSaid (said ++ [.answered (.price value) cost,
          .asked (.departed ⟨⟨key, value, cost⟩, .refused⟩)]) = Register.ofSaid said := by
        rw [Register.of_said_append, List.foldl_cons, hear_price calls]
        rfl
      refine ⟨intact, ?_, ?_, ?_⟩
      · exact (congrArg Register.calls heard).trans calls
      · intro pending member
        rcases List.mem_cons.mp member with rfl | old
        · exact fun _ none => nomatch none
        · exact waiting pending old
      · exact fun entry member => (congrArg _ (congrArg Register.admitted heard)).trans (admitted entry member)
  | admits key value cost fresh parted intact' =>
      refine Recorded.told _ (hear_price calls cost) calls ?_ waiting intact' ?_
      · intro departure member
        rcases List.mem_append.mp member with displaced | evicted
        · exact displacement_unrefused _ _ _ departure displaced
        · exact evictions_unrefused _ departure evicted
      · intro entry member
        rw [fresh] at member
        rcases List.mem_cons.mp member with rfl | kept
        · exact List.find?_cons_of_pos BEq.rfl
        · have other : entry ∈ store.meaning.others key := by
            rw [parted]
            exact List.mem_append_left _ kept
          have different : (key == entry.key) = false := by
            rw [BEq.comm]
            exact others_absent store.entries key entry other
          rw [List.find?_cons_of_neg (by simp [different])]
          exact admitted entry (List.mem_of_mem_filter other)
  | tells departure rest reply heard =>
      exact Recorded.told reply rfl calls (unrefused _ List.mem_cons_self) waiting intact admitted

variable [EquivBEq κ] [LawfulHashable κ] [BEq α]

theorem Recorded.accountable {said : List (Utterance (protocol κ α))} {store : Lru κ α}
    {works : List (Service.Pending (service (κ := κ) (α := α)))} (recorded : Recorded said store works) :
    Accountable said store where
  exactUse := recorded.intact.exact_use
  withinLimit := recorded.intact.withinLimit
  exactCount := recorded.intact.exact_count
  distinctKeys := recorded.intact.distinct_keys
  present key := by
    rw [recorded.intact.contains_eq, RecencyList.find?, List.find?_isSome]
    rfl
  admitted := recorded.admitted

omit [EquivBEq κ] [LawfulHashable κ] in
/-- At the start nothing was said and nothing is resident. -/
theorem recorded_initially (limit : UInt64) : Recorded [] (Lru.ofLimit limit : Lru κ α) [] where
  intact := of_limit_intact limit
  calls := rfl
  unrefused _ member := nomatch member
  admitted _ member := nomatch member

theorem recorded_of_leads {client : Client (protocol κ α) φ} {script : Script (protocol κ α) φ β} {memory : φ}
    {limit : UInt64} {said : List (Utterance (protocol κ α))} {moment : Moment service φ β}
    (leads : (Moment.opening script memory (Lru.ofLimit limit)).Leads client said moment) :
    Recorded said moment.state moment.works := by
  refine leads.preserves Recorded (recorded_initially limit) ?_ ?_
  · intro said store works request recorded
    exact recorded.started (start_meets recorded.intact request)
  · intro said store works request work answer recorded
    exact recorded.resumed (resume_meets recorded.intact work answer)

/-- Whatever a client does, and however deeply it calls back, each word in use is accounted for at every moment of
the dialogue, and nothing that is done to the store next fails. -/
theorem budget_holds_throughout (limit : UInt64) (client : Client (protocol κ α) φ)
    (script : Script (protocol κ α) φ β) (memory : φ) (steps : Nat) :
    let dialogue := (Moment.opening script memory (Lru.ofLimit limit) : Moment service φ β).advance client steps
    Accountable dialogue.1 dialogue.2.state ∧ Faultless dialogue.2.state := by
  have recorded := recorded_of_leads
    (Moment.leads_advance client steps (Moment.opening script memory (Lru.ofLimit limit) : Moment service φ β))
  exact ⟨recorded.accountable, recorded.intact.faultless⟩

/-- A client that is told of an eviction puts half of the value back: while the eviction is still being told, both
the value that evicted and the half are accounted for. -/
theorem half_put_back_is_accounted_for :
    let script : Script (protocol Nat Nat) (Diary Nat Nat) (Option Nat) := do
      let _ ← Script.ask (P := protocol Nat Nat) (.put 1 6)
      Script.ask (P := protocol Nat Nat) (.put 2 6)
    let client := demoter UInt64.ofNat fun value => if 1 < value then some (value / 2) else none
    let dialogue := (Moment.opening script Diary.empty (Lru.ofLimit 10) : Moment service _ _).advance client 10
    dialogue.2.works.length = 1 ∧ dialogue.2.state.used = 9 ∧ totalCost dialogue.2.state.entries = 9 := by
  intro script client dialogue
  obtain ⟨accountable, _⟩ := budget_holds_throughout 10 client script Diary.empty 10
  have used : dialogue.2.state.used = 9 := by cbv
  refine ⟨by cbv, used, ?_⟩
  rw [← accountable.exactUse, used]
  rfl

end Cache

end MemoryBudget
