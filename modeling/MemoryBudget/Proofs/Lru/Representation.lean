import MemoryBudget.Proofs.Lru.Layout
import MemoryBudget.Proofs.Lru.Recency
import MemoryBudget.Lru.Basic
import Mathlib.Data.List.Induction
import Std.Data.HashMap.Lemmas

/-!
# What a store represents

The arena, the index and the budget of a store say the same thing three times: which entries are resident. A
store represents a path when they agree on it. Each checked operation is stated once, on the path, together with
the fact that it meets no fault; all that is proved about stores rests on these statements.
-/

set_option autoImplicit false

namespace MemoryBudget

namespace Lru

open Arena RecencyList

variable {κ α : Type} [BEq κ] [Hashable κ]

def entriesOf (path : List (Place κ α)) : List (Entry κ α) := path.map (·.entry)

omit [BEq κ] [Hashable κ] in
@[simp] theorem entries_of_append (path rest : List (Place κ α)) :
    entriesOf (path ++ rest) = entriesOf path ++ entriesOf rest := by
  simp [entriesOf]

omit [BEq κ] [Hashable κ] in
@[simp] theorem entries_of_cons (place : Place κ α) (rest : List (Place κ α)) :
    entriesOf (place :: rest) = place.entry :: entriesOf rest := rfl

omit [BEq κ] [Hashable κ] in
@[simp] theorem entries_of_nil : entriesOf ([] : List (Place κ α)) = [] := rfl

/-- Arena, index and budget agree that exactly the entries of the path are resident. -/
structure Represents (store : Lru κ α) (path : List (Place κ α)) (vacancies : List Nat) : Prop where
  laid : store.arena.Laid path vacancies
  indexed : ∀ key, store.index[key]? = (path.find? (·.entry.key == key)).map (·.slot)
  distinctKeys : DistinctKeys (entriesOf path)
  counted : store.index.size = path.length
  exactUse : store.budget.used.toNat = totalCost (entriesOf path)

structure SameLimits (store store' : Lru κ α) : Prop where
  base : store'.budget.base = store.budget.base
  limit : store'.budget.limit = store.budget.limit

theorem SameLimits.refl (store : Lru κ α) : SameLimits store store := ⟨rfl, rfl⟩

theorem SameLimits.trans {first second third : Lru κ α} (earlier : SameLimits first second)
    (later : SameLimits second third) : SameLimits first third :=
  ⟨later.base.trans earlier.base, later.limit.trans earlier.limit⟩

theorem of_limit_represents (limit : UInt64) : Represents (ofLimit limit : Lru κ α) [] [] where
  laid := empty_laid
  indexed _ := Std.HashMap.getElem?_empty
  distinctKeys := List.Pairwise.nil
  counted := Std.HashMap.size_empty
  exactUse := rfl

theorem Represents.entries {store : Lru κ α} {path : List (Place κ α)} {vacancies : List Nat}
    (represents : Represents store path vacancies) : store.entries = entriesOf path :=
  represents.laid.entries

/-- No step of an eviction needs more steps than there are slots. -/
theorem Represents.path_length_le {store : Lru κ α} {path : List (Place κ α)} {vacancies : List Nat}
    (represents : Represents store path vacancies) : path.length ≤ store.arena.slots.size := by
  rw [← represents.laid.covered]
  exact Nat.le_add_right _ _

omit [Hashable κ] in
theorem entries_find (path : List (Place κ α)) (key : κ) :
    (entriesOf path).find? (·.key == key) = (path.find? (·.entry.key == key)).map (·.entry) := by
  rw [entriesOf, List.find?_map]
  rfl

/-- A key that is found stands at one place of the path. -/
theorem Represents.split_at {store : Lru κ α} {path : List (Place κ α)} {vacancies : List Nat}
    (represents : Represents store path vacancies) {key : κ} {slot : Nat}
    (found : store.index[key]? = some slot) :
    ∃ fresher place colder, path = fresher ++ place :: colder ∧ place.slot = slot ∧
      (place.entry.key == key) = true := by
  rw [represents.indexed] at found
  obtain ⟨place, first, rfl⟩ := Option.map_eq_some_iff.mp found
  obtain ⟨fresher, colder, rfl⟩ := List.append_of_mem (List.mem_of_find?_eq_some first)
  have sameKey : (place.entry.key == key) = true := by simpa using List.find?_some first
  exact ⟨fresher, place, colder, rfl, rfl, sameKey⟩

theorem Represents.absent {store : Lru κ α} {path : List (Place κ α)} {vacancies : List Nat}
    (represents : Represents store path vacancies) {key : κ} (missing : store.index[key]? = none) :
    (entriesOf path).find? (·.key == key) = none := by
  rw [represents.indexed] at missing
  rw [entries_find, Option.map_eq_none_iff.mp missing]
  rfl

theorem Represents.lookup {store : Lru κ α} {path : List (Place κ α)} {vacancies : List Nat}
    (represents : Represents store path vacancies) (key : κ) :
    store.lookup? key = .ok ((entriesOf path).find? (·.key == key)) := by
  rw [lookup?, represents.indexed, entries_find]
  cases first : path.find? (·.entry.key == key) with
  | none => rfl
  | some place =>
      obtain ⟨node, success, sameEntry⟩ :=
        represents.laid.node_of_place (List.mem_of_find?_eq_some first)
      simp only [Option.map_some, success, bind, Except.bind, ← sameEntry]
      rfl

variable [EquivBEq κ] [LawfulHashable κ]

omit [Hashable κ] [LawfulHashable κ] in
theorem other_keys_differ {fresher colder : List (Place κ α)} {place : Place κ α}
    (distinct : DistinctKeys (entriesOf (fresher ++ place :: colder))) {key : κ}
    (found : (place.entry.key == key) = true) :
    ∀ other ∈ fresher ++ colder, ¬ (other.entry.key == key) = true := by
  intro other member
  rw [entries_of_append, entries_of_cons] at distinct
  have different := (distinct_keys_around distinct).2 other.entry (by
    rw [← entries_of_append]
    exact List.mem_map_of_mem member)
  rw [← beq_key_congr found, different]
  exact Bool.false_ne_true

omit [Hashable κ] [LawfulHashable κ] in
theorem find_place {fresher colder : List (Place κ α)} {place : Place κ α}
    (distinct : DistinctKeys (entriesOf (fresher ++ place :: colder))) {key : κ}
    (found : (place.entry.key == key) = true) :
    (fresher ++ place :: colder).find? (·.entry.key == key) = some place := by
  have others := other_keys_differ distinct found
  have notFresher : fresher.find? (·.entry.key == key) = none :=
    List.find?_eq_none.mpr fun other member => others other (List.mem_append_left _ member)
  simp [notFresher, found]

omit [Hashable κ] [LawfulHashable κ] in
theorem find_without_place {fresher colder : List (Place κ α)} {place : Place κ α}
    (distinct : DistinctKeys (entriesOf (fresher ++ place :: colder))) (key : κ) :
    (fresher ++ colder).find? (·.entry.key == key) =
      if place.entry.key == key then none
      else (fresher ++ place :: colder).find? (·.entry.key == key) := by
  split_ifs with found
  · exact List.find?_eq_none.mpr (other_keys_differ distinct found)
  · simp [found]

omit [Hashable κ] [LawfulHashable κ] in
theorem find_with_place_first {fresher colder : List (Place κ α)} {place : Place κ α}
    (distinct : DistinctKeys (entriesOf (fresher ++ place :: colder))) (key : κ) :
    (place :: (fresher ++ colder)).find? (·.entry.key == key) =
      (fresher ++ place :: colder).find? (·.entry.key == key) := by
  by_cases found : (place.entry.key == key) = true
  · rw [find_place distinct found, List.find?_cons_of_pos (by exact found)]
  · rw [List.find?_cons_of_neg (by exact found), find_without_place distinct, if_neg found]

omit [LawfulHashable κ] in
theorem Represents.slot_of_key {store : Lru κ α} {fresher colder : List (Place κ α)} {place : Place κ α}
    {vacancies : List Nat} (represents : Represents store (fresher ++ place :: colder) vacancies)
    {key : κ} (found : (place.entry.key == key) = true) : store.index[key]? = some place.slot := by
  rw [represents.indexed, find_place represents.distinctKeys found]
  rfl

omit [LawfulHashable κ] in
/-- Getting the value of a key moves its entry to the front and changes nothing else. -/
theorem Represents.touch {store : Lru κ α} {fresher colder : List (Place κ α)} {place : Place κ α}
    {vacancies : List Nat} (represents : Represents store (fresher ++ place :: colder) vacancies)
    {key : κ} (found : (place.entry.key == key) = true) :
    ∃ store', store.touch? key = .ok (some place.entry, store') ∧
      Represents store' (place :: (fresher ++ colder)) vacancies ∧ store'.budget = store.budget := by
  obtain ⟨arena', success, laid'⟩ := represents.laid.promote
  obtain ⟨node, success', sameEntry⟩ := laid'.node_of_place List.mem_cons_self
  have moved : (place :: (fresher ++ colder)).Perm (fresher ++ place :: colder) :=
    List.perm_middle.symm
  refine ⟨{ store with arena := arena' }, ?_, ⟨laid', ?_, ?_, ?_, ?_⟩, rfl⟩
  · simp only [touch?, represents.slot_of_key found, bind, Except.bind, success, success', ← sameEntry]
    rfl
  · intro other
    rw [find_with_place_first represents.distinctKeys]
    exact represents.indexed other
  · have distinct := represents.distinctKeys
    rw [entries_of_append, entries_of_cons] at distinct
    rw [entries_of_cons, entries_of_append]
    exact distinct_keys_cons (distinct_keys_around distinct).1 (distinct_keys_around distinct).2
  · exact represents.counted.trans moved.length_eq.symm
  · rw [represents.exactUse]
    simp only [entries_of_append, entries_of_cons, total_cost_append, total_cost_cons]
    omega

/-- Evicting a slot takes its entry off the path, its key out of the index and its cost, which never exceeds what
is in use, out of the budget. -/
theorem Represents.evict_slot {store : Lru κ α} {fresher colder : List (Place κ α)} {place : Place κ α}
    {vacancies : List Nat} (represents : Represents store (fresher ++ place :: colder) vacancies) :
    ∃ store', store.evictSlot? place.slot = .ok (place.entry, store') ∧
      Represents store' (fresher ++ colder) (place.slot :: vacancies) ∧ SameLimits store store' := by
  obtain ⟨arena', success, laid'⟩ := represents.laid.vacate
  have use := represents.exactUse
  simp only [entries_of_append, entries_of_cons, total_cost_append, total_cost_cons] at use
  have affordable : place.entry.cost ≤ store.budget.used := by
    rw [UInt64.le_iff_toNat_le]
    omega
  have resident : place.entry.key ∈ store.index := by
    rw [Std.HashMap.mem_iff_isSome_getElem?, represents.slot_of_key BEq.rfl]
    rfl
  refine ⟨{
    arena := arena'
    index := store.index.erase place.entry.key
    budget := { store.budget with used := store.budget.used - place.entry.cost } },
    ?_, ⟨laid', ?_, ?_, ?_, ?_⟩, rfl, rfl⟩
  · simp only [evictSlot?, success, bind, Except.bind, Budget.giveBack?, if_pos affordable]
    rfl
  · intro key
    rw [Std.HashMap.getElem?_erase, find_without_place represents.distinctKeys, represents.indexed]
    split_ifs <;> rfl
  · have distinct := represents.distinctKeys
    rw [entries_of_append, entries_of_cons] at distinct
    rw [entries_of_append]
    exact (distinct_keys_around distinct).1
  · rw [Std.HashMap.size_erase, if_pos resident, represents.counted]
    simp
  · rw [UInt64.toNat_sub_of_le _ _ affordable]
    simp only [entries_of_append, total_cost_append]
    omega

theorem Represents.evict_coldest {store : Lru κ α} {path : List (Place κ α)} {last : Place κ α}
    {vacancies : List Nat} (represents : Represents store (path ++ [last]) vacancies) :
    ∃ store', store.evictSlot? last.slot = .ok (last.entry, store') ∧
      Represents store' path (last.slot :: vacancies) ∧ SameLimits store store' := by
  simpa using represents.evict_slot

theorem Represents.remove {store : Lru κ α} {fresher colder : List (Place κ α)} {place : Place κ α}
    {vacancies : List Nat} (represents : Represents store (fresher ++ place :: colder) vacancies)
    {key : κ} (found : (place.entry.key == key) = true) :
    ∃ store', store.remove? key = .ok (some place.entry, store') ∧
      Represents store' (fresher ++ colder) (place.slot :: vacancies) ∧ SameLimits store store' := by
  obtain ⟨store', success, represents', limits⟩ := represents.evict_slot
  refine ⟨store', ?_, represents', limits⟩
  simp only [remove?, represents.slot_of_key found, bind, Except.bind, success]
  rfl

omit [EquivBEq κ] [LawfulHashable κ] in
theorem Represents.coldest_place {store : Lru κ α} {path : List (Place κ α)} {last : Place κ α}
    {vacancies : List Nat} (represents : Represents store (path ++ [last]) vacancies) :
    store.arena.coldest = some last.slot := by
  rw [represents.laid.linked.coldest, last_slot_append]
  rfl

omit [EquivBEq κ] [LawfulHashable κ] in
theorem shed_within {target : UInt64} {store : Lru κ α} (steps : Nat)
    (within : store.budget.used ≤ target) : store.shed? target steps = .ok ([], store) := by
  rw [shed?.eq_def]
  exact if_pos within

omit [EquivBEq κ] [LawfulHashable κ] in
theorem shed_coldest {target : UInt64} {store between store' : Lru κ α} {steps slot : Nat}
    {entry : Entry κ α} {evicted : List (Entry κ α)} (exceeded : ¬ store.budget.used ≤ target)
    (coldest : store.arena.coldest = some slot) (first : store.evictSlot? slot = .ok (entry, between))
    (later : between.shed? target steps = .ok (evicted, store')) :
    store.shed? target (steps + 1) = .ok (entry :: evicted, store') := by
  rw [shed?.eq_def]
  simp only [if_neg exceeded, coldest, first, later, bind, Except.bind]
  rfl

omit [EquivBEq κ] [LawfulHashable κ] in
theorem drain_nothing {store : Lru κ α} (steps : Nat) (nothingLeft : store.arena.coldest = none) :
    store.drain? steps = .ok ([], store) := by
  cases steps with
  | zero => rfl
  | succ steps => simp [drain?, nothingLeft]

omit [EquivBEq κ] [LawfulHashable κ] in
theorem drain_coldest {store between store' : Lru κ α} {steps slot : Nat} {entry : Entry κ α}
    {evicted : List (Entry κ α)} (coldest : store.arena.coldest = some slot)
    (first : store.evictSlot? slot = .ok (entry, between)) (later : between.drain? steps = .ok (evicted, store')) :
    store.drain? (steps + 1) = .ok (entry :: evicted, store') := by
  simp only [drain?, coldest, first, later, bind, Except.bind]
  rfl

/-- The entry that is evicted first is the last one of the path. -/
theorem Represents.evicts_last {store between : Lru κ α} {path : List (Place κ α)} {vacancies : List Nat} {slot : Nat}
    {entry : Entry κ α} (represents : Represents store path vacancies) (coldest : store.arena.coldest = some slot)
    (first : store.evictSlot? slot = .ok (entry, between)) :
    ∃ before last, path = before ++ [last] ∧ entry = last.entry ∧
      Represents between before (last.slot :: vacancies) := by
  rcases List.eq_nil_or_concat path with rfl | ⟨before, last, rfl⟩
  · rw [show store.arena.coldest = none from represents.laid.linked.coldest] at coldest
    cases coldest
  · rw [List.concat_eq_append] at represents
    rw [represents.coldest_place] at coldest
    cases coldest
    obtain ⟨between', success, represents', _⟩ := represents.evict_coldest
    rw [first] at success
    cases success
    exact ⟨before, last, List.concat_eq_append, rfl, represents'⟩

/-- Shedding evicts the coldest entries until the target is met, and what stays is the longest prefix that meets
it. -/
theorem Represents.shed (target : UInt64) {store : Lru κ α} {path : List (Place κ α)}
    {vacancies : List Nat} (represents : Represents store path vacancies) (steps : Nat)
    (enough : path.length ≤ steps) :
    ∃ store' path' vacancies',
      store.shed? target steps = .ok ((split target.toNat (entriesOf path)).2, store') ∧
        Represents store' path' vacancies' ∧
          entriesOf path' = (split target.toNat (entriesOf path)).1 ∧ SameLimits store store' := by
  induction path using List.reverseRecOn generalizing store vacancies steps with
  | nil =>
      have within : store.budget.used ≤ target := by
        rw [UInt64.le_iff_toNat_le, represents.exactUse]
        exact Nat.zero_le _
      exact ⟨store, [], vacancies, shed_within steps within, represents, rfl, .refl store⟩
  | append_singleton path last ih =>
      by_cases within : store.budget.used ≤ target
      · have fits : totalCost (entriesOf (path ++ [last])) ≤ target.toNat := by
          rw [← represents.exactUse]
          exact UInt64.le_iff_toNat_le.mp within
        rw [split_of_within fits]
        exact ⟨store, path ++ [last], vacancies, shed_within steps within, represents, rfl, .refl store⟩
      · have exceeded : target.toNat < totalCost (entriesOf (path ++ [last])) := by
          rw [← represents.exactUse]
          exact UInt64.lt_iff_toNat_lt.mp (UInt64.not_le.mp within)
        rw [List.length_append, List.length_singleton] at enough
        obtain ⟨steps, rfl⟩ : ∃ fewer, steps = fewer + 1 := ⟨steps - 1, by omega⟩
        obtain ⟨between, success, represents', limits⟩ := represents.evict_coldest
        obtain ⟨store', path', vacancies', success', represents'', same, limits'⟩ :=
          ih represents' steps (by omega)
        rw [entries_of_append, entries_of_cons, entries_of_nil] at exceeded ⊢
        rw [split_of_exceeded exceeded]
        exact ⟨store', path', vacancies', shed_coldest within represents.coldest_place success success',
          represents'', same, limits.trans limits'⟩

theorem Represents.trim_to {store : Lru κ α} {path : List (Place κ α)} {vacancies : List Nat}
    (represents : Represents store path vacancies) (target : UInt64) :
    ∃ store' path' vacancies',
      store.trimTo? target = .ok ((split target.toNat (entriesOf path)).2, store') ∧
        Represents store' path' vacancies' ∧
          entriesOf path' = (split target.toNat (entriesOf path)).1 ∧ SameLimits store store' :=
  represents.shed target _ represents.path_length_le

theorem Represents.drain {store : Lru κ α} {path : List (Place κ α)} {vacancies : List Nat}
    (represents : Represents store path vacancies) (steps : Nat) (enough : path.length ≤ steps) :
    ∃ store' vacancies', store.drain? steps = .ok ((entriesOf path).reverse, store') ∧
      Represents store' [] vacancies' ∧ SameLimits store store' := by
  induction path using List.reverseRecOn generalizing store vacancies steps with
  | nil =>
      exact ⟨store, vacancies, drain_nothing steps represents.laid.linked.coldest, represents, .refl store⟩
  | append_singleton path last ih =>
      rw [List.length_append, List.length_singleton] at enough
      obtain ⟨steps, rfl⟩ : ∃ fewer, steps = fewer + 1 := ⟨steps - 1, by omega⟩
      obtain ⟨between, success, represents', limits⟩ := represents.evict_coldest
      obtain ⟨store', vacancies', success', represents'', limits'⟩ := ih represents' steps (by omega)
      refine ⟨store', vacancies', ?_, represents'', limits.trans limits'⟩
      rw [entries_of_append, List.reverse_append]
      exact drain_coldest represents.coldest_place success success'

theorem Represents.clear {store : Lru κ α} {path : List (Place κ α)} {vacancies : List Nat}
    (represents : Represents store path vacancies) :
    ∃ store' vacancies', store.clear? = .ok ((entriesOf path).reverse, store') ∧
      Represents store' [] vacancies' ∧ SameLimits store store' :=
  represents.drain _ represents.path_length_le

/-- An entry under a new key goes to the front, if its cost can be added without leaving the word. -/
theorem Represents.admit {store : Lru κ α} {path : List (Place κ α)} {vacancies : List Nat}
    (represents : Represents store path vacancies) (entry : Entry κ α)
    (absent : ∀ other ∈ entriesOf path, (other.key == entry.key) = false)
    (room : totalCost (entriesOf path) + entry.cost.toNat < UInt64.size) :
    ∃ slot arena' budget', store.arena.occupy? entry = .ok (slot, arena') ∧
      store.budget.take? entry.cost = .ok budget' ∧
        Represents { arena := arena', index := store.index.insert entry.key slot, budget := budget' }
          (⟨slot, entry⟩ :: path) vacancies.tail ∧
        budget'.base = store.budget.base ∧ budget'.limit = store.budget.limit := by
  obtain ⟨slot, arena', success, laid'⟩ := represents.laid.occupy entry
  rw [← represents.exactUse] at room
  have missing : entry.key ∉ store.index := by
    rw [Std.HashMap.mem_iff_isSome_getElem?, represents.indexed]
    have notFound : path.find? (·.entry.key == entry.key) = none := by
      rw [List.find?_eq_none]
      intro place member
      rw [absent place.entry (List.mem_map_of_mem member)]
      exact Bool.false_ne_true
    simp [notFound]
  refine ⟨slot, arena', { store.budget with used := store.budget.used + entry.cost }, success,
    if_pos room, ⟨laid', ?_, distinct_keys_cons represents.distinctKeys absent, ?_, ?_⟩, rfl, rfl⟩
  · intro key
    rw [Std.HashMap.getElem?_insert, represents.indexed, List.find?_cons]
    cases entry.key == key <;> rfl
  · rw [Std.HashMap.size_insert, if_neg missing, represents.counted]
    rfl
  · rw [UInt64.toNat_add, Nat.mod_eq_of_lt room, represents.exactUse, entries_of_cons, total_cost_cons,
      Nat.add_comm]

end Lru

end MemoryBudget
