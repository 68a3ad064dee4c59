import MemoryBudget.Proofs.Cache.Steps
import MemoryBudget.Proofs.Dialogue.History
import Mathlib.Algebra.Order.Group.Multiset
import Mathlib.Tactic.Abel

/-!
# Conservation of values

A value that is put is accounted for from the answer of its price on: it is resident, or it has left in one of five
ways. A call that waits while departures are told has settled all of them already, and its reply too; so the
accounts are kept over what was said together with what is certain to be said. A step moves values from one account
to another, and neither loses nor doubles one.
-/

set_option autoImplicit false

namespace MemoryBudget

namespace Cache

open RecencyList Lru

inductive Situation where
  | resident
  /-- The client was told that it was refused. -/
  | refused
  /-- The client was told that a different value has displaced it. -/
  | displaced
  /-- The client was told that it was evicted. -/
  | evicted
  /-- A removal has handed it out. -/
  | removed
  /-- An equal value was put under its key, and that put has handed it out. -/
  | refreshed
  deriving DecidableEq

def Cause.situation : Cause → Situation
  | .refused => .refused
  | .displaced => .displaced
  | .evicted => .evicted

variable {κ α φ β : Type}

def Departure.account (departure : Departure κ α) : Situation × α :=
  (departure.cause.situation, departure.entry.value)

def Departure.notice (departure : Departure κ α) : Utterance (protocol κ α) :=
  .asked (.departed departure)

def offers : Utterance (protocol κ α) → List α
  | .called (.put _ value) => [value]
  | _ => []

def offered (said : List (Utterance (protocol κ α))) : List α := said.flatMap offers

/-- The value that is settled with an utterance. A put that was answered by a value has displaced or refreshed it;
if it has displaced it, the client is told so and it is settled then. -/
def settles [BEq α] : Utterance (protocol κ α) → List (Situation × α)
  | .asked (.departed departure) => [departure.account]
  | .replied (.remove _) (some value) => [(.removed, value)]
  | .replied (.put _ value) (some previous) => if previous != value then [] else [(.refreshed, previous)]
  | _ => []

def settlements [BEq α] (said : List (Utterance (protocol κ α))) : Multiset (Situation × α) :=
  ↑(said.flatMap settles)

/-! ## Moves between the accounts -/

/-- Some resident values leave. They, and the values that are brought, are accounted for anew; a value that has left
is not accounted for as refused. -/
def Moves (before after : Multiset (Situation × α)) (brought : Multiset α) : Prop :=
  ∃ stay left fresh, before = stay + left ∧ after = stay + fresh ∧
    fresh.map Prod.snd = brought + left.map Prod.snd ∧ (left = 0 ∨ ∀ account ∈ fresh, account.1 ≠ .refused)

theorem Moves.of_eq {before after : Multiset (Situation × α)} (same : after = before) : Moves before after 0 :=
  ⟨before, 0, 0, (add_zero _).symm, same.trans (add_zero _).symm, rfl, Or.inl rfl⟩

/-- Nothing is lost, and nothing is there twice. -/
theorem Moves.values {before after : Multiset (Situation × α)} {brought : Multiset α}
    (moves : Moves before after brought) : after.map Prod.snd = before.map Prod.snd + brought := by
  obtain ⟨stay, left, fresh, rfl, rfl, values, _⟩ := moves
  rw [Multiset.map_add, Multiset.map_add, values]
  abel

def Admitted (accounts : Multiset (Situation × α)) (value : α) : Prop :=
  ∃ situation, situation ≠ .refused ∧ (situation, value) ∈ accounts

/-- What was admitted once will never be refused. -/
theorem Moves.admitted {before after : Multiset (Situation × α)} {brought : Multiset α}
    (moves : Moves before after brought) {value : α} (admitted : Admitted before value) : Admitted after value := by
  obtain ⟨stay, left, fresh, rfl, rfl, values, afresh⟩ := moves
  obtain ⟨situation, unrefused, member⟩ := admitted
  rcases Multiset.mem_add.mp member with stays | leaves
  · exact ⟨situation, unrefused, Multiset.mem_add.mpr (Or.inl stays)⟩
  · rcases afresh with rfl | unrefused
    · exact absurd leaves (Multiset.notMem_zero _)
    · have again : value ∈ fresh.map Prod.snd := by
        rw [values]
        exact Multiset.mem_add.mpr (Or.inr (Multiset.mem_map_of_mem Prod.snd leaves))
      obtain ⟨account, isFresh, rfl⟩ := Multiset.mem_map.mp again
      exact ⟨account.1, unrefused account isFresh, Multiset.mem_add.mpr (Or.inr isFresh)⟩

theorem accounts_evictions (entries : List (Entry κ α)) :
    (evictions entries).map Departure.account = entries.map fun entry => (Situation.evicted, entry.value) :=
  List.map_map

variable [BEq α]

/-! ## What an utterance settles -/

theorem settlements_append (said more : List (Utterance (protocol κ α))) :
    settlements (said ++ more) = settlements said + settlements more := by
  rw [settlements, List.flatMap_append, ← Multiset.coe_add]
  rfl

theorem settlements_perm {said more : List (Utterance (protocol κ α))} (same : said.Perm more) :
    settlements said = settlements more :=
  Multiset.coe_eq_coe.mpr (same.flatMap_right settles)

theorem settlements_notices (departures : List (Departure κ α)) :
    settlements (departures.map Departure.notice) = ↑(departures.map Departure.account) := by
  rw [settlements, List.flatMap_map, ← List.flatMap_singleton' (departures.map _), List.flatMap_map]
  rfl

theorem settlements_of_quiet {request : Call κ α} (quiet : request.Quiet) (reply : (protocol κ α).Reply request)
    (departures : List (Departure κ α)) :
    settlements [.called request] + ↑(departures.map Departure.account) + settlements [.replied request reply] =
      ↑(departures.map Departure.account) := by
  have silent : settlements [.called request] = 0 ∧ settlements [.replied request reply] = 0 := by
    cases request with
    | put key value => exact quiet.elim
    | remove key => exact quiet.elim
    | _ => exact ⟨rfl, rfl⟩
  rw [silent.1, silent.2, zero_add, add_zero]

theorem settlements_removal (key : κ) (found : Option (Entry κ α)) :
    settlements [.called (.remove key)] + (([] : List (Departure κ α)).map Departure.account : Multiset (Situation × α)) +
        settlements [.replied (.remove key) (found.map (·.value))] =
      ↑(found.toList.map fun entry => (Situation.removed, entry.value)) := by
  cases found <;> rfl

/-! ## What is certain -/

/-- What is certain to be said when a call waits, apart from answers. -/
def Work.due {request : Call κ α} : Work request → List (Utterance (protocol κ α))
  | .pricing _ _ => []
  | .telling _ rest reply => rest.map Departure.notice ++ [.replied request reply]

def Work.offer {request : Call κ α} : Work request → List α
  | .pricing _ value => [value]
  | .telling _ _ _ => []

variable [BEq κ] [Hashable κ]

def certain (said : List (Utterance (protocol κ α))) (works : List (Service.Pending (service (κ := κ) (α := α)))) :
    List (Utterance (protocol κ α)) :=
  said ++ works.flatMap fun pending => Work.due pending.work

def unpriced (works : List (Service.Pending (service (κ := κ) (α := α)))) : Multiset α :=
  ↑(works.flatMap fun pending => Work.offer pending.work)

def residents (store : Lru κ α) : Multiset (Situation × α) :=
  ↑(store.entries.map fun entry => (Situation.resident, entry.value))

def accounts (said : List (Utterance (protocol κ α))) (store : Lru κ α)
    (works : List (Service.Pending (service (κ := κ) (α := α)))) : Multiset (Situation × α) :=
  residents store + settlements (certain said works)

/-- When departures are told, all of them and the reply become certain at once. -/
theorem certain_tell (said : List (Utterance (protocol κ α)))
    (works : List (Service.Pending (service (κ := κ) (α := α)))) (utterance : Utterance (protocol κ α))
    (request : Call κ α) (reply : (protocol κ α).Reply request) (departures : List (Departure κ α)) :
    (certain (said ++ [utterance, service.announce request (tell reply departures)])
        (service.outstanding (tell reply departures) ++ works)).Perm
      (certain said works ++ ([utterance] ++ departures.map Departure.notice ++ [.replied request reply])) := by
  have whole : [service.announce request (tell reply departures)] ++
      (service.outstanding (tell reply departures)).flatMap (fun pending => Work.due pending.work) =
        departures.map Departure.notice ++ [.replied request reply] := by
    cases departures with
    | nil => rfl
    | cons departure rest => exact congrArg (departure.notice :: ·) (List.append_nil _)
  refine Multiset.coe_eq_coe.mp ?_
  rw [certain, certain, List.flatMap_append, List.append_assoc [utterance], ← whole, ← List.singleton_append]
  simp only [← Multiset.coe_add]
  abel

/-- Nothing is certain about a put that waits for its price. -/
theorem certain_pricing (said : List (Utterance (protocol κ α)))
    (works : List (Service.Pending (service (κ := κ) (α := α)))) (more : List (Utterance (protocol κ α)))
    (key : κ) (value : α) :
    (certain (said ++ more) (⟨.put key value, .pricing key value⟩ :: works)).Perm (certain said works ++ more) := by
  rw [certain, certain, List.append_assoc, List.append_assoc]
  exact List.perm_append_comm.append_left said

theorem certain_telling (said : List (Utterance (protocol κ α)))
    (works : List (Service.Pending (service (κ := κ) (α := α)))) (request : Call κ α) (departure : Departure κ α)
    (rest : List (Departure κ α)) (reply : (protocol κ α).Reply request) :
    (certain said (⟨request, .telling departure rest reply⟩ :: works)).Perm
      (certain said works ++ (rest.map Departure.notice ++ [.replied request reply])) := by
  rw [certain, certain, List.flatMap_cons, List.append_assoc]
  exact List.perm_append_comm.append_left said

/-- What telling departures adds to the settlements. -/
theorem settlements_tell (said : List (Utterance (protocol κ α)))
    (works : List (Service.Pending (service (κ := κ) (α := α)))) (utterance : Utterance (protocol κ α))
    {request : Call κ α} (reply : (protocol κ α).Reply request) (departures : List (Departure κ α)) :
    settlements (certain (said ++ [utterance, service.announce request (tell reply departures)])
        (service.outstanding (tell reply departures) ++ works)) =
      settlements (certain said works) + (settlements [utterance] + ↑(departures.map Departure.account) +
        settlements [.replied request reply]) := by
  rw [settlements_perm (certain_tell said works utterance request reply departures), settlements_append,
    settlements_append, settlements_append, settlements_notices]

omit [BEq α] in
theorem residents_of_parted {store : Lru κ α} {kept evicted : List (Entry κ α)}
    (parted : store.entries = kept ++ evicted.reverse) :
    residents store = ↑(kept.map fun entry => (Situation.resident, entry.value)) +
      ↑(evicted.map fun entry => (Situation.resident, entry.value)) := by
  rw [residents, parted, List.map_append, ← Multiset.coe_add, List.map_reverse, Multiset.coe_reverse]

theorem moves_tell {said : List (Utterance (protocol κ α))} {store store' : Lru κ α}
    {works : List (Service.Pending (service (κ := κ) (α := α)))} {utterance : Utterance (protocol κ α)}
    (request : Call κ α) (reply : (protocol κ α).Reply request) (departures : List (Departure κ α))
    {keep left extra settled : Multiset (Situation × α)} {brought : Multiset α}
    (before : residents store = keep + left) (after : residents store' = keep + extra)
    (settling : settlements [utterance] + ↑(departures.map Departure.account) +
      settlements [.replied request reply] = settled)
    (values : (extra + settled).map Prod.snd = brought + left.map Prod.snd)
    (afresh : left = 0 ∨ ∀ account ∈ extra + settled, account.1 ≠ .refused) :
    Moves (accounts said store works)
      (accounts (said ++ [utterance, service.announce request (tell reply departures)]) store'
        (service.outstanding (tell reply departures) ++ works)) brought := by
  refine ⟨keep + settlements (certain said works), left, extra + settled, ?_, ?_, values, afresh⟩
  · rw [accounts, before]
    abel
  · rw [accounts, after, settlements_tell, settling]
    abel

omit [BEq α] in
theorem residents_of_entries {store : Lru κ α} {entries : List (Entry κ α)} (same : store.entries = entries) :
    residents store = ↑(entries.map fun entry => (Situation.resident, entry.value)) := by
  rw [residents, same]

omit [BEq α] in
/-- The entry under a key, where there is one, and the others. -/
theorem residents_of_others [EquivBEq κ] {store : Lru κ α} (intact : Intact store) (key : κ) :
    residents store =
      ↑((store.meaning.others key).map fun entry => (Situation.resident, entry.value)) +
        ↑((store.meaning.find? key).toList.map fun entry => (Situation.resident, entry.value)) := by
  rw [add_comm, Multiset.coe_add, ← List.map_append]
  exact Multiset.coe_eq_coe.mpr ((perm_find_others intact.distinct_keys key).map _)

omit [BEq α] in
theorem residents_of_perm {store store' : Lru κ α} (same : store'.entries.Perm store.entries) :
    residents store' = residents store :=
  Multiset.coe_eq_coe.mpr (same.map _)

/-- The start of a call brings no value; what leaves is handed out or told. -/
theorem Starts.moves [EquivBEq κ] {said : List (Utterance (protocol κ α))} {store : Lru κ α}
    {works : List (Service.Pending (service (κ := κ) (α := α)))} {request : Call κ α}
    {progressed : Progress (Work request) ((protocol κ α).Reply request) × Lru κ α}
    (before : Intact store) (starts : Starts store request progressed) :
    Moves (accounts said store works)
      (accounts (said ++ [.called request, service.announce request progressed.1]) progressed.2
        (service.outstanding progressed.1 ++ works)) 0 := by
  cases starts with
  | prices key value =>
      have same := settlements_perm
        (certain_pricing said works [.called (.put key value), .asked (.price value)] key value)
      rw [settlements_append, show settlements [.called (.put key value), .asked (.price value)] = 0 from rfl,
        add_zero] at same
      exact .of_eq (congrArg (residents store + ·) same)
  | @replies request store' quiet reply same intact =>
      have silent := settlements_of_quiet quiet reply []
      exact moves_tell request reply [] (add_zero _).symm ((residents_of_perm same).trans (add_zero _).symm) silent rfl
        (Or.inl rfl)
  | @removes store' key rest intact =>
      have parted := residents_of_others before key
      rw [← residents_of_entries rest] at parted
      refine moves_tell (.remove key) _ [] parted (add_zero _).symm (settlements_removal key _) ?_ (Or.inr ?_)
      · simp [Function.comp_def]
      · simp
  | @evicts request store' evicted quiet reply parted intact =>
      have settled := (settlements_of_quiet quiet reply (evictions evicted)).trans
        (congrArg Multiset.ofList (accounts_evictions evicted))
      refine moves_tell request reply _ (residents_of_parted parted) (add_zero _).symm settled ?_ (Or.inr ?_)
      · simp [Function.comp_def]
      · simp

/-- A put that waits for its price is not accounted for. -/
theorem accounts_pricing (said : List (Utterance (protocol κ α))) (store : Lru κ α)
    (works : List (Service.Pending (service (κ := κ) (α := α)))) (key : κ) (value : α) :
    accounts said store (⟨.put key value, .pricing key value⟩ :: works) = accounts said store works := rfl

def succession (previous : Option (Entry κ α)) (value : α) : Multiset (Situation × α) :=
  ↑(previous.toList.map fun entry =>
    (if entry.value != value then Situation.displaced else .refreshed, entry.value))

omit [BEq κ] [Hashable κ] in
theorem succession_eq (previous : Option (Entry κ α)) (key : κ) (value : α) :
    (↑((displacement previous key value).map Departure.account) : Multiset (Situation × α)) +
      settlements [.replied (.put key value) (previous.map (·.value))] = succession previous value := by
  cases previous with
  | none => rfl
  | some entry =>
      cases unequal : entry.value != value <;>
        simp [displacement, settlements, settles, succession, Option.filter_some, unequal, Departure.account,
          Cause.situation]

omit [BEq κ] [Hashable κ] in
theorem settlements_refusal (query : Query κ α) (answer : (protocol κ α).Answer query) (offered : Entry κ α) :
    settlements [.answered query answer] + ↑([⟨offered, .refused⟩].map Departure.account) +
        settlements [.replied (.put offered.key offered.value) none] = {(.refused, offered.value)} := rfl

omit [BEq κ] [Hashable κ] in
theorem settlements_admission (query : Query κ α) (answer : (protocol κ α).Answer query)
    (previous : Option (Entry κ α)) (evicted : List (Entry κ α)) (key : κ) (value : α) :
    settlements [.answered query answer] +
        ↑((displacement previous key value ++ evictions evicted).map Departure.account) +
          settlements [.replied (.put key value) (previous.map (·.value))] =
      ↑(evicted.map fun entry => (Situation.evicted, entry.value)) + succession previous value := by
  rw [List.map_append, accounts_evictions, ← succession_eq previous key, ← Multiset.coe_add,
    show settlements [.answered query answer] = 0 from rfl]
  abel

omit [BEq κ] [Hashable κ] in
theorem succession_values (previous : Option (Entry κ α)) (value : α) :
    (succession previous value).map Prod.snd = ↑(previous.toList.map fun entry => entry.value) := by
  rw [succession, Multiset.map_coe, List.map_map]
  rfl

/-- An answer to a query brings the value whose price it is. -/
theorem Resumes.moves [EquivBEq κ] {said : List (Utterance (protocol κ α))} {store : Lru κ α}
    {works : List (Service.Pending (service (κ := κ) (α := α)))} {request : Call κ α} {work : Work request}
    {answer : (protocol κ α).Answer work.query}
    {progressed : Progress (Work request) ((protocol κ α).Reply request) × Lru κ α}
    (before : Intact store) (resumes : Resumes store work answer progressed) :
    Moves (accounts said store (⟨request, work⟩ :: works))
      (accounts (said ++ [.answered (service.query work) answer, service.announce request progressed.1])
        progressed.2 (service.outstanding progressed.1 ++ works)) ↑work.offer := by
  cases resumes with
  | refuses key value cost tooCostly =>
      rw [accounts_pricing]
      exact moves_tell (.put key value) none [⟨⟨key, value, cost⟩, .refused⟩] (add_zero _).symm (add_zero _).symm
        (settlements_refusal (.price value) cost ⟨key, value, cost⟩) rfl (Or.inl rfl)
  | @admits store' evicted kept key value cost fresh parted intact =>
      have residentsBefore := residents_of_others before key
      rw [parted, List.map_append, ← Multiset.coe_add, List.map_reverse, Multiset.coe_reverse,
        add_assoc] at residentsBefore
      have residentsAfter := residents_of_entries fresh
      rw [List.map_cons, ← Multiset.cons_coe, ← Multiset.singleton_add, add_comm] at residentsAfter
      rw [accounts_pricing]
      refine moves_tell (.put key value) _ _ residentsBefore residentsAfter
        (settlements_admission (.price value) cost _ evicted key value) ?_ (Or.inr ?_)
      · simp only [Multiset.map_add, succession_values]
        simp [Function.comp_def, Work.offer]
      · intro account member
        rcases Multiset.mem_add.mp member with fresh | settled
        · rw [Multiset.mem_singleton.mp fresh]
          exact fun same => nomatch same
        · rcases Multiset.mem_add.mp settled with evicted | succeeded
          · obtain ⟨entry, _, rfl⟩ := List.mem_map.mp evicted
            exact fun same => nomatch same
          · obtain ⟨entry, _, rfl⟩ := List.mem_map.mp succeeded
            dsimp only
            split <;> exact fun same => nomatch same
  | tells departure rest reply heard =>
      refine .of_eq ?_
      rw [accounts, accounts, settlements_perm (certain_telling said works request departure rest reply)]
      refine congrArg (residents store + ·) ((settlements_tell said works _ reply rest).trans ?_)
      rw [settlements_append, settlements_append, settlements_notices]
      exact congrArg _ (congrArg (· + _) (zero_add _))

/-! ## Whole dialogues -/

theorem unpriced_append (works more : List (Service.Pending (service (κ := κ) (α := α)))) :
    unpriced (works ++ more) = unpriced works + unpriced more := by
  rw [unpriced, List.flatMap_append, ← Multiset.coe_add]
  rfl

theorem unpriced_cons {request : Call κ α} (work : Work request)
    (works : List (Service.Pending (service (κ := κ) (α := α)))) :
    unpriced (⟨request, work⟩ :: works) = ↑work.offer + unpriced works :=
  unpriced_append [⟨request, work⟩] works |>.trans
    (congrArg (· + unpriced works) (congrArg Multiset.ofList (List.append_nil work.offer)))

omit [BEq α] [BEq κ] [Hashable κ] in
theorem offered_append (said more : List (Utterance (protocol κ α))) :
    offered (said ++ more) = offered said ++ offered more :=
  List.flatMap_append

omit [BEq α] [BEq κ] [Hashable κ] in
theorem offers_of_quiet {request : Call κ α} (quiet : request.Quiet) : offers (.called request) = [] := by
  cases request with
  | put key value => exact quiet.elim
  | _ => rfl

theorem offered_tell (utterance : Utterance (protocol κ α)) (request : Call κ α)
    (reply : (protocol κ α).Reply request) (departures : List (Departure κ α)) :
    offered [utterance, service.announce request (tell reply departures)] = offers utterance ∧
      unpriced (service.outstanding (tell reply departures)) = 0 := by
  cases departures with
  | nil => exact ⟨List.append_nil _, rfl⟩
  | cons departure rest => exact ⟨List.append_nil _, rfl⟩

/-- The value that a call puts waits for its price. -/
theorem Starts.offered {store : Lru κ α} {request : Call κ α}
    {progressed : Progress (Work request) ((protocol κ α).Reply request) × Lru κ α}
    (starts : Starts store request progressed) :
    unpriced (service.outstanding progressed.1) =
      ↑(offered [.called request, service.announce request progressed.1]) := by
  cases starts with
  | prices key value => rfl
  | replies request quiet reply same intact =>
      obtain ⟨silent, unpriced⟩ := offered_tell (.called request) request reply []
      exact unpriced.trans (congrArg Multiset.ofList (silent.trans (offers_of_quiet quiet))).symm
  | removes key rest intact => rfl
  | evicts request quiet reply parted intact =>
      obtain ⟨silent, unpriced⟩ := offered_tell (.called request) request reply (evictions _)
      exact unpriced.trans (congrArg Multiset.ofList (silent.trans (offers_of_quiet quiet))).symm

/-- An answer puts nothing, and nothing waits for a price after it that did not before. -/
theorem Resumes.offered {store : Lru κ α} {request : Call κ α} {work : Work request}
    {answer : (protocol κ α).Answer work.query}
    {progressed : Progress (Work request) ((protocol κ α).Reply request) × Lru κ α}
    (resumes : Resumes store work answer progressed) :
    offered [.answered (service.query work) answer, service.announce request progressed.1] = [] ∧
      unpriced (service.outstanding progressed.1) = 0 := by
  cases resumes with
  | refuses key value cost tooCostly => exact offered_tell _ (.put key value) none [_]
  | admits key value cost fresh parted intact => exact offered_tell _ (.put key value) _ _
  | tells departure rest reply heard => exact offered_tell _ request reply rest

/-- Each value that was put waits for its price or is accounted for, and it does so once. -/
structure Conserved (said : List (Utterance (protocol κ α))) (store : Lru κ α)
    (works : List (Service.Pending (service (κ := κ) (α := α)))) : Prop where
  intact : Intact store
  offered : (↑(offered said) : Multiset α) = unpriced works + (accounts said store works).map Prod.snd

theorem Conserved.started [EquivBEq κ] {said : List (Utterance (protocol κ α))} {store : Lru κ α}
    {works : List (Service.Pending (service (κ := κ) (α := α)))} (conserved : Conserved said store works)
    {request : Call κ α} {progressed : Progress (Work request) ((protocol κ α).Reply request) × Lru κ α}
    (starts : Starts store request progressed) :
    Conserved (said ++ [.called request, service.announce request progressed.1]) progressed.2
      (service.outstanding progressed.1 ++ works) where
  intact := starts.intact conserved.intact
  offered := by
    rw [(starts.moves conserved.intact).values, offered_append, ← Multiset.coe_add, conserved.offered,
      unpriced_append, starts.offered]
    abel

theorem Conserved.resumed [EquivBEq κ] {said : List (Utterance (protocol κ α))} {store : Lru κ α}
    {works : List (Service.Pending (service (κ := κ) (α := α)))} {request : Call κ α} {work : Work request}
    {answer : (protocol κ α).Answer work.query} (conserved : Conserved said store (⟨request, work⟩ :: works))
    {progressed : Progress (Work request) ((protocol κ α).Reply request) × Lru κ α}
    (resumes : Resumes store work answer progressed) :
    Conserved (said ++ [.answered (service.query work) answer, service.announce request progressed.1]) progressed.2
      (service.outstanding progressed.1 ++ works) where
  intact := resumes.intact conserved.intact
  offered := by
    obtain ⟨silent, unpriced⟩ := resumes.offered
    rw [(resumes.moves conserved.intact).values, offered_append, silent, List.append_nil, conserved.offered,
      unpriced_append, unpriced, unpriced_cons]
    abel

variable [EquivBEq κ] [LawfulHashable κ]

theorem conserved_of_leads {client : Client (protocol κ α) φ} {script : Script (protocol κ α) φ β} {memory : φ}
    {limit : UInt64} {said : List (Utterance (protocol κ α))} {moment : Moment service φ β}
    (leads : (Moment.opening script memory (Lru.ofLimit limit)).Leads client said moment) :
    Conserved said moment.state moment.works := by
  refine leads.preserves Conserved ⟨of_limit_intact limit, rfl⟩ ?_ ?_
  · intro said store works request conserved
    exact conserved.started (start_meets conserved.intact request)
  · intro said store works request work answer conserved
    exact conserved.resumed (resume_meets conserved.intact work answer)

/-- From any moment on, what was admitted before stays admitted. -/
theorem admitted_of_leads {client : Client (protocol κ α) φ} {first last : Moment (service (κ := κ) (α := α)) φ β}
    {more : List (Utterance (protocol κ α))} (leads : first.Leads client more last) (intact : Intact first.state)
    {said : List (Utterance (protocol κ α))} {value : α}
    (admitted : Admitted (accounts said first.state first.works) value) :
    Admitted (accounts (said ++ more) last.state last.works) value := by
  refine (leads.preserves
    (fun more store works => Intact store ∧ Admitted (accounts (said ++ more) store works) value) ?_ ?_ ?_).2
  · rw [List.append_nil]
    exact ⟨intact, admitted⟩
  · rintro more store works request ⟨intact, admitted⟩
    have starts := start_meets intact request
    rw [← List.append_assoc]
    exact ⟨starts.intact intact, (starts.moves intact).admitted admitted⟩
  · rintro more store works request work answer ⟨intact, admitted⟩
    have resumes := resume_meets intact work answer
    rw [← List.append_assoc]
    exact ⟨resumes.intact intact, (resumes.moves intact).admitted admitted⟩

end Cache

end MemoryBudget
