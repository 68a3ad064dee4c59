import MemoryBudget.Proofs.Cache.Steps
import MemoryBudget.Proofs.Dialogue.History
import MemoryBudget.Proofs.Dialogue.Memory
import MemoryBudget.Proofs.Dialogue.Versions
import Mathlib

/-!
# Putting a value into a cache

What a put does from its start to its reply. It asks for one price, the one of the new value. The store then changes all
at once, and whatever the client is told afterwards, it is told with the store as it stays: no entry that it hears of is
still there, and the new value is already the freshest.
-/

set_option autoImplicit false

namespace MemoryBudget

namespace Cache

open RecencyList Lru

variable {κ α φ : Type} [BEq κ] [Hashable κ]

/-- The store has taken in a value that was offered: `kept` is what stays of the other entries, `evicted` what makes
room, coldest first. -/
structure Admits (store : Lru κ α) (offered : Entry κ α) (kept evicted : List (Entry κ α)) (final : Lru κ α) :
    Prop where
  parted : store.meaning.others offered.key = kept ++ evicted.reverse
  within : totalCost kept ≤ store.limit.toNat - offered.cost.toNat
  /-- Wherever else the others are parted, so that there is room, no fewer entries leave. -/
  fewest : ∀ fresher colder, store.meaning.others offered.key = fresher ++ colder →
    totalCost fresher ≤ store.limit.toNat - offered.cost.toNat → evicted.length ≤ colder.length
  entries : final.entries = offered :: kept
  budget : final.budget = { store.budget with used := final.used }
  used : final.used.toNat = offered.cost.toNat + totalCost kept
  count : final.count = kept.length + 1
  present : final.peek? offered.key = some offered.value
  absent : ∀ entry ∈ evicted, final.contains entry.key = false

end Cache

namespace Lru

open RecencyList Cache

variable {κ α : Type} [BEq κ] [Hashable κ]

theorem exchange_store [BEq α] (store : Lru κ α) (offered : Entry κ α) :
    (store.exchange offered).2 = (store.insert offered).2 := by
  rw [exchange]
  split <;> simp_all

theorem budget_eq_of_meaning {store final : Lru κ α} (base : final.meaning.base = store.meaning.base)
    (limit : final.meaning.limit = store.meaning.limit) : final.budget = { store.budget with used := final.used } := by
  cases final with
  | mk arena index budget =>
      cases budget
      cases base
      cases limit
      rfl

variable [EquivBEq κ] [LawfulHashable κ]

/-- What is evicted for the sake of a new entry has another key, and its key is gone. -/
theorem Intact.evicted_absent {store final : Lru κ α} (intact : Intact store) (intact' : Intact final)
    {offered : Entry κ α} {kept evicted : List (Entry κ α)} (entries : final.entries = offered :: kept)
    (parted : store.meaning.others offered.key = kept ++ evicted.reverse) {entry : Entry κ α}
    (member : entry ∈ evicted) : final.contains entry.key = false := by
  have distinct : DistinctKeys (kept ++ evicted.reverse) := by
    rw [← parted]
    exact List.Pairwise.filter _ intact.distinct_keys
  have among : entry ∈ store.meaning.others offered.key := by simp [parted, member]
  have other : (entry.key == offered.key) = false := others_absent store.entries offered.key entry among
  have gone : ∀ resident ∈ kept, (resident.key == entry.key) = false := by
    intro resident stays
    exact (List.pairwise_append.mp distinct).2.2 resident stays entry (List.mem_reverse.mpr member)
  rw [intact'.contains_eq, Option.isSome_eq_false_iff, Option.isNone_iff_eq_none, RecencyList.find?,
    List.find?_eq_none]
  rw [show final.meaning.entries = offered :: kept from entries, List.forall_mem_cons]
  refine ⟨?_, ?_⟩
  · rw [BEq.comm, other]
    exact Bool.false_ne_true
  · intro resident stays
    rw [gone resident stays]
    exact Bool.false_ne_true

theorem Intact.exchange_admits [BEq α] {store : Lru κ α} (intact : Intact store) {offered : Entry κ α}
    (affordable : ¬ store.limit ≤ offered.cost) :
    ∃ kept evicted final, Admits store offered kept evicted final ∧
      store.exchange offered =
        ((displacement (store.meaning.find? offered.key) offered.key offered.value ++ evictions evicted,
          store.peek? offered.key), final) := by
  rcases intact.exchange_cases offered with
    ⟨tooCostly, _⟩ | ⟨_, evicted, final, intact', exchanged, kept, entries, parted⟩
  · exact absurd tooCostly affordable
  · have state : final.meaning = (store.meaning.insert offered).2 := by
      have agrees := intact.insert_agrees offered
      rw [← agrees.state, ← exchange_store, exchanged]
    rw [insert_of_affordable (show ¬ store.meaning.limit ≤ offered.cost from affordable)] at state
    have longest : kept = longestWithin (store.limit.toNat - offered.cost.toNat) (store.meaning.others offered.key) :=
      (List.cons.inj (entries.symm.trans (congrArg RecencyList.entries state))).2
    refine ⟨kept, evicted, final, ?_, ?_⟩
    · constructor
      · exact parted
      · rw [longest]
        exact total_cost_longest_within _ _
      · intro fresher colder parted' within
        have leads : fresher <+: store.meaning.others offered.key := ⟨colder, parted'.symm⟩
        have noLonger := longest_within_is_longest leads within
        have lengths := congrArg List.length (parted.symm.trans parted')
        rw [← longest] at noLonger
        simp only [List.length_append, List.length_reverse] at lengths
        omega
      · exact entries
      · apply budget_eq_of_meaning <;> rw [state]
      · rw [intact'.exact_use, entries, total_cost_cons]
      · rw [intact'.exact_count, entries, List.length_cons]
      · rw [intact'.peek_eq, RecencyList.find?, show final.meaning.entries = offered :: kept from entries]
        simp
      · intro entry member
        exact intact.evicted_absent intact' entries parted member
    · rw [exchanged, intact.peek_eq]

theorem Intact.of_reached [BEq α] {limit : UInt64} {store : Lru κ α}
    (reached : (service (κ := κ) (α := α)).Reaches (Lru.ofLimit limit) store) : Intact store := by
  apply reached.preserves Intact
  · exact of_limit_intact limit
  · intro request store intact
    exact (start_meets intact request).intact intact
  · intro request work answer store intact
    exact (resume_meets intact work answer).intact intact

end Lru

namespace Cache

open RecencyList Lru

variable {κ α φ : Type} [BEq κ] [Hashable κ] [BEq α]

/-- Once a call has only departures left to tell, the store stays as it is. -/
theorem finish_told (answer : (query : (protocol κ α).Query) → φ → (protocol κ α).Answer query × φ) {request : Call κ α}
    (work : Work request) (store : Lru κ α) (memory : φ) (heard : List (Query κ α × Lru κ α))
    {reply : (protocol κ α).Reply request} {departures : List (Departure κ α)} {final : Lru κ α}
    (resumed : resume work (answer work.query memory).1 store = (tell reply departures, final)) :
    ∃ later, service.finish (.watching answer) work store (memory, heard) =
      (reply, final, later,
        heard ++ (work.query, store) :: departures.map fun departure => (.departed departure, final)) := by
  induction departures generalizing work store memory heard with
  | nil => exact ⟨_, Service.finish_of_replied service (.watching answer) work store (memory, heard) resumed⟩
  | cons departure rest ih =>
      obtain ⟨later, finished⟩ := ih (.telling departure rest reply) final (answer work.query memory).2
        (heard ++ [(work.query, store)]) rfl
      rw [List.append_assoc] at finished
      refine ⟨later, ?_⟩
      rw [Service.finish_of_waiting service (.watching answer) work store (memory, heard) resumed]
      exact finished

theorem perform_put (answer : (query : (protocol κ α).Query) → φ → (protocol κ α).Answer query × φ) (key : κ)
    (value : α) (store : Lru κ α) (memory : φ) {cost : UInt64} (priced : (answer (.price value) memory).1 = cost)
    {previous : Option α} {departures : List (Departure κ α)} {final : Lru κ α}
    (exchanged : store.exchange ⟨key, value, cost⟩ = ((departures, previous), final)) :
    ∃ later, service.perform (.watching answer) (.put key value) store (memory, []) =
      (previous, final, later,
        (.price value, store) :: departures.map fun departure => (.departed departure, final)) := by
  have resumed : resume (.pricing key value) cost store =
      (@tell κ α (.put key value) (store.exchange ⟨key, value, cost⟩).1.2 (store.exchange ⟨key, value, cost⟩).1.1,
        (store.exchange ⟨key, value, cost⟩).2) := rfl
  rw [exchanged, ← priced] at resumed
  obtain ⟨later, finished⟩ := finish_told answer (.pricing key value) store memory [] resumed
  refine ⟨later, ?_⟩
  rw [Service.perform_of_waiting service (.watching answer) (.pricing key value) store (memory, []) rfl]
  exact finished

variable [EquivBEq κ] [LawfulHashable κ]

/-- A put asks for the price of the new value, once, and for no other. A value that costs the whole limit or more is
handed back, with the store as it was; any other becomes the freshest entry. The value under its key is told about only
if it differs, and under the key that was given; then the fewest of the coldest others that make room, each of them when
all have gone. -/
theorem put_settles_before_it_tells (limit : UInt64) {store : Lru κ α}
    (reached : (service (κ := κ) (α := α)).Reaches (Lru.ofLimit limit) store)
    (answer : (query : (protocol κ α).Query) → φ → (protocol κ α).Answer query × φ) (memory : φ) (key : κ) (value : α) :
    let cost : UInt64 := (answer (.price value) memory).1
    let outcome := service.perform (.watching answer) (.put key value) store (memory, [])
    let final := outcome.2.1
    let heard : List (Query κ α × Lru κ α) := outcome.2.2.2
    (store.limit ≤ cost → outcome.1 = none ∧ final = store ∧
      heard = [(.price value, store), (.departed ⟨⟨key, value, cost⟩, .refused⟩, store)]) ∧
    (cost < store.limit → outcome.1 = store.peek? key ∧
      ∃ kept evicted, Admits store ⟨key, value, cost⟩ kept evicted final ∧
        heard = (.price value, store) :: (displacement (store.meaning.find? key) key value ++ evictions evicted).map
          fun departure => (.departed departure, final)) := by
  intro cost outcome final heard
  have intact : Intact store := .of_reached reached
  constructor
  · intro tooCostly
    rcases intact.exchange_cases ⟨key, value, cost⟩ with ⟨_, exchanged⟩ | ⟨affordable, _⟩
    · obtain ⟨later, performed⟩ := perform_put answer key value store memory rfl exchanged
      have told : outcome = _ := performed
      exact ⟨congrArg (·.1) told, congrArg (·.2.1) told, congrArg (·.2.2.2) told⟩
    · exact absurd tooCostly affordable
  · intro affordable
    obtain ⟨kept, evicted, final', admits, exchanged⟩ :=
      intact.exchange_admits (UInt64.not_le.mpr affordable : ¬ store.limit ≤ (⟨key, value, cost⟩ : Entry κ α).cost)
    obtain ⟨later, performed⟩ := perform_put answer key value store memory rfl exchanged
    have told : outcome = _ := performed
    have settled : final = final' := congrArg (·.2.1) told
    rw [settled]
    exact ⟨congrArg (·.1) told, kept, evicted, admits, congrArg (·.2.2.2) told⟩

/-- Three values of three each are within ten. A value of five under the second key displaces the old one and evicts the
first entry; the third one may stay. -/
theorem dearer_value_evicts_one_entry :
    let client : Client (protocol Nat Nat) Unit := fun
      | .price value => .done (UInt64.ofNat value)
      | .departed _ => .done ()
    let answer : (query : (protocol Nat Nat).Query) → Unit → (protocol Nat Nat).Answer query × Unit := fun
      | .price value, _ => (UInt64.ofNat value, ())
      | .departed _, _ => ((), ())
    let script : Script (protocol Nat Nat) Unit (Option Nat) :=
      .call (.put 1 3) fun _ => .call (.put 2 3) fun _ => .call (.put 3 3) fun reply => .done reply
    let dialogue := (Moment.opening script () (Lru.ofLimit 10) : Moment service _ _).advance client 6
    let store := dialogue.2.state
    let outcome := service.perform (.watching answer) (.put 2 5) store ((), [])
    outcome.1 = some 3 ∧ outcome.2.1.entries = [⟨2, 5, 5⟩, ⟨3, 3, 3⟩] ∧
      outcome.2.2.2 = [(.price 5, store), (.departed ⟨⟨2, 3, 3⟩, .displaced⟩, outcome.2.1),
        (.departed ⟨⟨1, 3, 3⟩, .evicted⟩, outcome.2.1)] := by
  intro client answer script dialogue store outcome
  have reached : service.Reaches (Lru.ofLimit 10) store := ⟨_, _, client, script, (), 6, rfl⟩
  have entries : dialogue.2.state.entries = [⟨3, 3, 3⟩, ⟨2, 3, 3⟩, ⟨1, 3, 3⟩] := by cbv
  have limit : dialogue.2.state.limit = 10 := by cbv
  obtain ⟨_, affordable⟩ := put_settles_before_it_tells 10 reached answer () 2 5
  obtain ⟨reply, kept, evicted, admits, heard⟩ := affordable (by rw [limit]; decide)
  have found : store.meaning.find? 2 = some ⟨2, 3, 3⟩ := by rw [RecencyList.find?, meaning, entries]; rfl
  have others : store.meaning.others 2 = [⟨3, 3, 3⟩, ⟨1, 3, 3⟩] := by rw [RecencyList.others, meaning, entries]; rfl
  have within := admits.within
  have fewest := admits.fewest [⟨3, 3, 3⟩] [⟨1, 3, 3⟩] others (by rw [limit]; decide)
  have parted := others.symm.trans admits.parted
  rw [limit] at within
  -- Without an eviction six of ten would stay beside the five, and two evictions are more than one.
  rcases evicted with _ | ⟨last, _ | ⟨next, rest⟩⟩
  · simp only [List.reverse_nil, List.append_nil] at parted
    subst parted
    exact absurd within (by decide)
  · obtain ⟨rfl, same⟩ := List.append_inj' (show [⟨3, 3, 3⟩] ++ [⟨1, 3, 3⟩] = kept ++ [last] from parted) rfl
    obtain rfl : _ = last := List.singleton_inj.mp same
    refine ⟨?_, admits.entries, ?_⟩
    · rw [reply, (Intact.of_reached reached).peek_eq, found]
      rfl
    · rw [heard, found]
      rfl
  · simp at fewest

end Cache

end MemoryBudget
