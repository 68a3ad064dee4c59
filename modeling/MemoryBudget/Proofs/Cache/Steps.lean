import MemoryBudget.Cache.Basic
import MemoryBudget.Proofs.Lru.Meaning

/-!
# Steps of caches

What the start of a call and the answer to a query do to an intact cache, as far as its entries, the reply and the
departures are concerned. Everything that holds throughout the dialogues with a cache is read off these cases.
-/

set_option autoImplicit false

namespace MemoryBudget

namespace Lru

open RecencyList Cache

variable {κ α : Type} [BEq κ] [Hashable κ]

/-- Some entries stay and the colder ones leave, coldest first. -/
structure Sheds (store : Lru κ α) (outcome : List (Entry κ α) × Lru κ α) : Prop where
  parted : store.entries = outcome.2.entries ++ outcome.1.reverse
  intact : Intact outcome.2

theorem Agrees.sheds {store : Lru κ α} {actual : List (Entry κ α) × Lru κ α}
    {meant : List (Entry κ α) × RecencyList κ α} (agrees : Agrees actual meant)
    (parted : store.entries = meant.2.entries ++ meant.1.reverse) : Sheds store actual where
  parted := by
    rw [agrees.outcome, show actual.2.entries = meant.2.entries from congrArg RecencyList.entries agrees.state]
    exact parted
  intact := agrees.intact

variable [EquivBEq κ] [LawfulHashable κ]

omit [LawfulHashable κ] in
theorem Intact.get_perm {store : Lru κ α} (intact : Intact store) (key : κ) :
    (store.get key).2.entries.Perm store.entries := by
  have parted := perm_find_others intact.distinct_keys key
  rw [show (store.get key).2.entries = (store.meaning.get key).2.entries from
    congrArg RecencyList.entries (intact.get_agrees key).state, RecencyList.get]
  cases found : store.meaning.find? key with
  | none => exact List.Perm.refl _
  | some entry =>
      rw [show store.entries.find? (·.key == key) = some entry from found] at parted
      exact parted.symm

theorem Intact.trim_sheds {store : Lru κ α} (intact : Intact store) (target : UInt64) :
    Sheds store (store.trimTo target) :=
  (intact.trim_agrees target).sheds (split_append_reverse _ _).symm

theorem Intact.clear_sheds {store : Lru κ α} (intact : Intact store) : Sheds store store.clear :=
  intact.clear_agrees.sheds (List.reverse_reverse _).symm

theorem Intact.pressure_sheds {store : Lru κ α} (intact : Intact store) (pressure : Pressure) :
    Sheds store (store.trim pressure) := by
  rw [trim]
  cases pressure.retention with
  | everything => exact ⟨(List.append_nil _).symm, intact⟩
  | half => exact intact.trim_sheds _
  | nothing => exact intact.clear_sheds

theorem Intact.rescale_sheds {store : Lru κ α} (intact : Intact store) (multiplier : Multiplier) :
    (∃ invalid, store.rescale multiplier = .error invalid) ∨
      ∃ outcome, store.rescale multiplier = .ok outcome ∧ Sheds store outcome := by
  rcases intact.rescale_agrees multiplier with ⟨invalid, actual, _⟩ | ⟨actual, meant, ok, ok', agrees⟩
  · exact Or.inl ⟨invalid, actual⟩
  · refine Or.inr ⟨actual, ok, agrees.sheds ?_⟩
    cases valid : multiplier.validate with
    | error invalid =>
        rw [rescale_of_invalid valid] at ok'
        cases ok'
    | ok _ =>
        rw [rescale_of_valid valid] at ok'
        cases ok'
        exact (split_append_reverse _ _).symm

/-- The departure of an entry that makes way for a value that is put under this key, unless the value is equal to it. -/
def displacement [BEq α] (previous : Option (Entry κ α)) (key : κ) (value : α) : List (Departure κ α) :=
  (previous.filter (·.value != value)).toList.map fun entry => ⟨{ entry with key := key }, .displaced⟩

omit [EquivBEq κ] [LawfulHashable κ] in
/-- The client is told of the entry under the key if its value differs, and then of those that make room. -/
theorem Intact.exchange_of_admitted [BEq α] {store store' : Lru κ α} (intact : Intact store) {offered : Entry κ α}
    {evicted : List (Entry κ α)}
    (inserted : store.insert offered = (.admitted (store.meaning.find? offered.key) evicted, store')) :
    store.exchange offered =
      ((displacement (store.meaning.find? offered.key) offered.key offered.value ++ evictions evicted,
        (store.meaning.find? offered.key).map (·.value)), store') := by
  rw [exchange, inserted]
  simp only [intact.peek_eq, displacement]
  cases store.meaning.find? offered.key with
  | none => rfl
  | some previous => cases unequal : previous.value != offered.value <;> simp [Option.filter_some, unequal]

/-- A priced value is refused and changes nothing; or it becomes the freshest entry, and what leaves is the entry
under its key and the coldest of the others. -/
theorem Intact.exchange_cases [BEq α] {store : Lru κ α} (intact : Intact store) (offered : Entry κ α) :
    (store.limit ≤ offered.cost ∧ store.exchange offered = (([⟨offered, .refused⟩], none), store)) ∨
    (¬ store.limit ≤ offered.cost ∧ ∃ evicted store', Intact store' ∧
      store.exchange offered =
        ((displacement (store.meaning.find? offered.key) offered.key offered.value ++ evictions evicted,
          (store.meaning.find? offered.key).map (·.value)), store') ∧
      ∃ kept, store'.entries = offered :: kept ∧
        store.meaning.others offered.key = kept ++ evicted.reverse) := by
  obtain ⟨outcome, state, intact'⟩ := intact.insert_agrees offered
  cases inserted : store.insert offered with
  | mk placement store' =>
      rw [inserted] at outcome state intact'
      by_cases tooCostly : store.limit ≤ offered.cost
      · rw [insert_of_too_costly (show store.meaning.limit ≤ offered.cost from tooCostly)] at outcome
        have unchanged : store' = store := by
          rw [insert, insert?, if_pos (show store.budget.limit ≤ offered.cost from tooCostly)] at inserted
          exact (Prod.mk.inj inserted).2.symm
        refine Or.inl ⟨tooCostly, ?_⟩
        simp only at outcome
        rw [exchange, inserted, outcome, unchanged]
      · rw [insert_of_affordable (show ¬ store.meaning.limit ≤ offered.cost from tooCostly)] at outcome state
        refine Or.inr ⟨tooCostly, _, store', intact', ?_, _, congrArg RecencyList.entries state,
          (split_append_reverse _ _).symm⟩
        simp only at outcome
        rw [intact.exchange_of_admitted (inserted.trans (congrArg (·, store') outcome))]

end Lru

namespace Cache

open RecencyList Lru

variable {κ α : Type}

def Call.Quiet : Call κ α → Prop
  | .put _ _ | .remove _ => False
  | _ => True

def Work.remaining {request : Call κ α} : Work request → List (Departure κ α)
  | .pricing _ _ => []
  | .telling _ rest _ => rest

variable [BEq κ] [Hashable κ]

inductive Starts (store : Lru κ α) : (request : Call κ α) →
    Progress (Work request) ((protocol κ α).Reply request) × Lru κ α → Prop where
  /-- A put waits for the price. -/
  | prices (key : κ) (value : α) : Starts store (.put key value) (.waiting (.pricing key value), store)
  /-- Nothing leaves. -/
  | replies (request : Call κ α) {store' : Lru κ α} (quiet : request.Quiet)
      (reply : (protocol κ α).Reply request) (same : store'.entries.Perm store.entries)
      (intact : Intact store') : Starts store request (.replied reply, store')
  | removes {store' : Lru κ α} (key : κ) (rest : store'.entries = store.meaning.others key)
      (intact : Intact store') :
      Starts store (.remove key) (.replied ((store.meaning.find? key).map (·.value)), store')
  /-- The coldest entries leave, and the client is told. -/
  | evicts (request : Call κ α) {store' : Lru κ α} {evicted : List (Entry κ α)} (quiet : request.Quiet)
      (reply : (protocol κ α).Reply request) (parted : store.entries = store'.entries ++ evicted.reverse)
      (intact : Intact store') : Starts store request (tell reply (evictions evicted), store')

inductive Resumes [BEq α] (store : Lru κ α) : {request : Call κ α} → (work : Work request) →
    (protocol κ α).Answer work.query →
      Progress (Work request) ((protocol κ α).Reply request) × Lru κ α → Prop where
  | refuses (key : κ) (value : α) (cost : UInt64) (tooCostly : store.limit ≤ cost) :
      Resumes store (.pricing key value) cost (tell none [⟨⟨key, value, cost⟩, .refused⟩], store)
  | admits {store' : Lru κ α} {evicted kept : List (Entry κ α)} (key : κ) (value : α) (cost : UInt64)
      (fresh : store'.entries = ⟨key, value, cost⟩ :: kept)
      (parted : store.meaning.others key = kept ++ evicted.reverse) (intact : Intact store') :
      Resumes store (.pricing key value) cost
        (tell ((store.meaning.find? key).map (·.value))
          (displacement (store.meaning.find? key) key value ++ evictions evicted), store')
  | tells {request : Call κ α} (departure : Departure κ α) (rest : List (Departure κ α))
      (reply : (protocol κ α).Reply request) (heard : Unit) :
      Resumes store (.telling departure rest reply) heard (tell reply rest, store)

theorem Starts.intact {store : Lru κ α} (before : Intact store) {request : Call κ α}
    {progressed : Progress (Work request) ((protocol κ α).Reply request) × Lru κ α}
    (starts : Starts store request progressed) : Intact progressed.2 := by
  cases starts with
  | prices => exact before
  | replies _ _ _ _ intact => exact intact
  | removes _ _ intact => exact intact
  | evicts _ _ _ _ intact => exact intact

theorem Resumes.intact [BEq α] {store : Lru κ α} (before : Intact store) {request : Call κ α}
    {work : Work request} {answer : (protocol κ α).Answer work.query}
    {progressed : Progress (Work request) ((protocol κ α).Reply request) × Lru κ α}
    (resumes : Resumes store work answer progressed) : Intact progressed.2 := by
  cases resumes with
  | refuses => exact before
  | admits _ _ _ _ _ intact => exact intact
  | tells => exact before

variable [EquivBEq κ] [LawfulHashable κ]

theorem start_meets {store : Lru κ α} (intact : Intact store) (request : Call κ α) :
    Starts store request (start request store) := by
  cases request with
  | put key value => exact .prices key value
  | get key =>
      exact .replies (.get key) trivial _ (intact.get_perm key) (intact.get_agrees key).intact
  | peek key => exact .replies (.peek key) trivial _ (List.Perm.refl _) intact
  | remove key =>
      obtain ⟨outcome, state, intact'⟩ := intact.remove_agrees key
      have meets : Starts store (.remove key)
          (.replied ((store.meaning.find? key).map (·.value)), (store.remove key).2) :=
        .removes key (congrArg RecencyList.entries state) intact'
      rw [← show (store.remove key).1 = store.meaning.find? key from outcome] at meets
      exact meets
  | contains key => exact .replies (.contains key) trivial _ (List.Perm.refl _) intact
  | trimTo target =>
      obtain ⟨parted, intact'⟩ := intact.trim_sheds target
      exact .evicts (.trimTo target) trivial () parted intact'
  | clear =>
      obtain ⟨parted, intact'⟩ := intact.clear_sheds
      exact .evicts .clear trivial () parted intact'
  | trim pressure =>
      obtain ⟨parted, intact'⟩ := intact.pressure_sheds pressure
      exact .evicts (.trim pressure) trivial () parted intact'
  | rescale multiplier =>
      rw [start]
      rcases intact.rescale_sheds multiplier with ⟨invalid, refused⟩ | ⟨outcome, rescaled, parted, intact'⟩
      · rw [refused]
        exact .replies (.rescale multiplier) trivial _ (List.Perm.refl _) intact
      · rw [rescaled]
        exact .evicts (.rescale multiplier) trivial (.ok ()) parted intact'
  | usage => exact .replies .usage trivial _ (List.Perm.refl _) intact

theorem resume_meets [BEq α] {store : Lru κ α} (intact : Intact store) {request : Call κ α}
    (work : Work request) (answer : (protocol κ α).Answer work.query) :
    Resumes store work answer (resume work answer store) := by
  cases work with
  | pricing key value =>
      rw [resume]
      rcases intact.exchange_cases ⟨key, value, answer⟩ with
        ⟨tooCostly, refused⟩ | ⟨_, evicted, store', intact', admitted, kept, fresh, parted⟩
      · rw [refused]
        exact .refuses key value answer tooCostly
      · rw [admitted]
        exact .admits key value answer fresh parted intact'
  | telling departure rest reply => exact .tells departure rest reply answer

end Cache

end MemoryBudget
