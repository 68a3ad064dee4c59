import MemoryBudget.Proofs.Lru.Representation
import MemoryBudget.Lru.Operation

/-!
# The meaning of a store

A store means the plain list of its entries with its base and its limit. As long as the store is intact, each of
its operations succeeds, answers as the operation on the list does, leaves the store with the meaning of the
changed list, and leaves it intact.
-/

set_option autoImplicit false

namespace MemoryBudget

namespace Lru

open Arena RecencyList

variable {κ α ρ : Type} [BEq κ] [Hashable κ]

def meaning (store : Lru κ α) : RecencyList κ α :=
  { base := store.budget.base, limit := store.limit, entries := store.entries }

/-- The parts of the store agree on which entries are resident, and these are within the limit. -/
structure Intact (store : Lru κ α) : Prop where
  represented : ∃ path vacancies, Represents store path vacancies
  withinLimit : store.used ≤ store.limit

/-- A checked operation succeeds as it is meant to, and leaves an intact store. -/
def Realizes (checked : Except Fault (ρ × Lru κ α)) (meant : ρ × RecencyList κ α) : Prop :=
  ∃ store', checked = .ok (meant.1, store') ∧ store'.meaning = meant.2 ∧ Intact store'

structure Agrees (actual : ρ × Lru κ α) (meant : ρ × RecencyList κ α) : Prop where
  outcome : actual.1 = meant.1
  state : actual.2.meaning = meant.2
  intact : Intact actual.2

theorem of_limit_intact (limit : UInt64) : Intact (ofLimit limit : Lru κ α) where
  represented := ⟨[], [], of_limit_represents limit⟩
  withinLimit := UInt64.zero_le

theorem of_limit_meaning (limit : UInt64) :
    (ofLimit limit : Lru κ α).meaning = RecencyList.ofLimit limit := rfl

theorem Represents.used_eq {store : Lru κ α} {path : List (Place κ α)} {vacancies : List Nat}
    (represents : Represents store path vacancies) : store.used.toNat = totalCost store.entries := by
  rw [represents.entries]
  exact represents.exactUse

theorem Intact.exact_use {store : Lru κ α} (intact : Intact store) :
    store.used.toNat = totalCost store.entries := by
  obtain ⟨path, vacancies, represents⟩ := intact.represented
  exact represents.used_eq

theorem Intact.exact_count {store : Lru κ α} (intact : Intact store) :
    store.count = store.entries.length := by
  obtain ⟨path, vacancies, represents⟩ := intact.represented
  rw [represents.entries, entriesOf, List.length_map]
  exact represents.counted

theorem Intact.distinct_keys {store : Lru κ α} (intact : Intact store) : DistinctKeys store.entries := by
  obtain ⟨path, vacancies, represents⟩ := intact.represented
  rw [represents.entries]
  exact represents.distinctKeys

theorem Intact.is_empty {store : Lru κ α} (intact : Intact store) :
    store.isEmpty = store.entries.isEmpty := by
  have counted : store.index.size = store.entries.length := intact.exact_count
  rw [isEmpty, Std.HashMap.isEmpty_eq_size_eq_zero, counted]
  cases store.entries <;> rfl

/-- The costs of the resident entries add up to no more than the limit. -/
theorem Intact.total_cost_le {store : Lru κ α} (intact : Intact store) :
    totalCost store.entries ≤ store.limit.toNat := by
  rw [← intact.exact_use]
  exact UInt64.le_iff_toNat_le.mp intact.withinLimit

theorem Represents.meaning_of {store store' : Lru κ α} {path : List (Place κ α)} {vacancies : List Nat}
    (represents : Represents store' path vacancies) (limits : SameLimits store store')
    {entries : List (Entry κ α)} (same : entriesOf path = entries) :
    store'.meaning = { store.meaning with entries := entries } := by
  rw [meaning, represents.entries, same, limit, limits.base, limits.limit]
  rfl

/-- A store that has given back some of its use within the same limits is as intact as it was before. -/
theorem Represents.intact_of {store store' : Lru κ α} {path : List (Place κ α)} {vacancies : List Nat}
    (represents : Represents store' path vacancies) (limits : SameLimits store store')
    (within : totalCost (entriesOf path) ≤ store.limit.toNat) : Intact store' where
  represented := ⟨path, vacancies, represents⟩
  withinLimit := by
    rw [UInt64.le_iff_toNat_le, used, represents.exactUse, limit, limits.limit]
    exact within

/-! ## Checked operations -/

theorem Intact.lookup {store : Lru κ α} (intact : Intact store) (key : κ) :
    store.lookup? key = .ok (store.meaning.find? key) := by
  obtain ⟨path, vacancies, represents⟩ := intact.represented
  rw [represents.lookup key, meaning, RecencyList.find?, represents.entries]

variable [EquivBEq κ] [LawfulHashable κ]

omit [LawfulHashable κ] in
theorem Intact.touch {store : Lru κ α} (intact : Intact store) (key : κ) :
    Realizes (store.touch? key) (store.meaning.find? key, (store.meaning.get key).2) := by
  obtain ⟨path, vacancies, represents⟩ := intact.represented
  have within := intact.total_cost_le
  cases slotFound : store.index[key]? with
  | none =>
      have absent : store.meaning.find? key = none := by
        rw [meaning, RecencyList.find?, represents.entries]
        exact represents.absent slotFound
      refine ⟨store, ?_, ?_, intact⟩
      · rw [touch?, slotFound, absent]
      · rw [RecencyList.get, absent]
  | some slot =>
      obtain ⟨fresher, place, colder, rfl, rfl, found⟩ := represents.split_at slotFound
      obtain ⟨store', success, represents', sameBudget⟩ := represents.touch found
      have limits : SameLimits store store' := ⟨by rw [sameBudget], by rw [sameBudget]⟩
      have present : store.meaning.find? key = some place.entry := by
        rw [meaning, RecencyList.find?, represents.entries, entries_find,
          find_place represents.distinctKeys found]
        rfl
      have distinct := represents.distinctKeys
      rw [entries_of_append, entries_of_cons] at distinct
      refine ⟨store', ?_, ?_, represents'.intact_of limits ?_⟩
      · rw [success, present]
      · rw [RecencyList.get, present, represents'.meaning_of limits rfl]
        simp only [meaning, others, represents.entries, entries_of_append, entries_of_cons,
          others_around distinct found]
      · rw [represents.entries] at within
        simp only [entries_of_append, entries_of_cons, total_cost_append, total_cost_cons] at within ⊢
        omega

theorem Intact.remove_checked {store : Lru κ α} (intact : Intact store) (key : κ) :
    Realizes (store.remove? key) (store.meaning.remove key) := by
  obtain ⟨path, vacancies, represents⟩ := intact.represented
  have within := intact.total_cost_le
  cases slotFound : store.index[key]? with
  | none =>
      have absent : store.meaning.entries.find? (·.key == key) = none := by
        rw [meaning, represents.entries]
        exact represents.absent slotFound
      refine ⟨store, ?_, ?_, intact⟩
      · rw [remove?, slotFound, RecencyList.remove, RecencyList.find?, absent]
      · rw [RecencyList.remove, others, others_of_absent absent]
  | some slot =>
      obtain ⟨fresher, place, colder, rfl, rfl, found⟩ := represents.split_at slotFound
      obtain ⟨store', success, represents', limits⟩ := represents.remove found
      have distinct := represents.distinctKeys
      rw [entries_of_append, entries_of_cons] at distinct
      refine ⟨store', ?_, ?_, represents'.intact_of limits ?_⟩
      · rw [success, RecencyList.remove, RecencyList.find?, meaning, represents.entries, entries_find,
          find_place represents.distinctKeys found]
        rfl
      · rw [represents'.meaning_of limits rfl]
        simp only [RecencyList.remove, meaning, others, represents.entries, entries_of_append,
          entries_of_cons, others_around distinct found]
      · rw [represents.entries] at within
        simp only [entries_of_append, entries_of_cons, total_cost_append, total_cost_cons] at within ⊢
        omega

/-- Trimming succeeds even right after the limit has shrunk below what is in use, if it trims down to it. -/
theorem Represents.trim_realizes {store : Lru κ α} {path : List (Place κ α)} {vacancies : List Nat}
    (represents : Represents store path vacancies) (target : UInt64)
    (enough : store.used ≤ store.limit ∨ target ≤ store.limit) :
    Realizes (store.trimTo? target) (store.meaning.trimTo target) := by
  obtain ⟨store', path', vacancies', success, represents', kept, limits⟩ := represents.trim_to target
  refine ⟨store', ?_, ?_, represents'.intact_of limits ?_⟩
  · rw [success, RecencyList.trimTo, meaning, represents.entries]
  · rw [represents'.meaning_of limits kept, RecencyList.trimTo]
    simp only [meaning, represents.entries]
  · rw [kept]
    rcases enough with within | below
    · have smaller := total_cost_split_le target.toNat (entriesOf path)
      rw [← represents.exactUse] at smaller
      exact Nat.le_trans smaller (UInt64.le_iff_toNat_le.mp within)
    · exact Nat.le_trans (total_cost_longest_within _ _) (UInt64.le_iff_toNat_le.mp below)

theorem Intact.trim_checked {store : Lru κ α} (intact : Intact store) (target : UInt64) :
    Realizes (store.trimTo? target) (store.meaning.trimTo target) := by
  obtain ⟨path, vacancies, represents⟩ := intact.represented
  exact represents.trim_realizes target (Or.inl intact.withinLimit)

theorem Intact.clear_checked {store : Lru κ α} (intact : Intact store) :
    Realizes store.clear? store.meaning.clear := by
  obtain ⟨path, vacancies, represents⟩ := intact.represented
  obtain ⟨store', vacancies', success, represents', limits⟩ := represents.clear
  refine ⟨store', ?_, represents'.meaning_of limits rfl, represents'.intact_of limits (Nat.zero_le _)⟩
  rw [success, RecencyList.clear, meaning, represents.entries]

/-- Once room has been made for an entry, whose key is absent, taking its cost neither leaves the word nor
exceeds the limit. -/
theorem Intact.admit {store : Lru κ α} (intact : Intact store) (entry : Entry κ α)
    (absent : ∀ other ∈ store.entries, (other.key == entry.key) = false)
    (room : totalCost store.entries + entry.cost.toNat ≤ store.limit.toNat) :
    ∃ slot arena' budget', store.arena.occupy? entry = .ok (slot, arena') ∧
      store.budget.take? entry.cost = .ok budget' ∧
        ({ arena := arena', index := store.index.insert entry.key slot, budget := budget' } : Lru κ α).meaning =
          { store.meaning with entries := entry :: store.entries } ∧
        Intact ({ arena := arena', index := store.index.insert entry.key slot, budget := budget' } : Lru κ α) := by
  obtain ⟨path, vacancies, represents⟩ := intact.represented
  rw [represents.entries] at absent room
  have fits : totalCost (entriesOf path) + entry.cost.toNat < UInt64.size :=
    Nat.lt_of_le_of_lt room store.limit.toNat_lt_size
  obtain ⟨slot, arena', budget', success, taken, represents', base, limit⟩ :=
    represents.admit entry absent fits
  have limits : SameLimits store { arena := arena', index := store.index.insert entry.key slot, budget := budget' } :=
    ⟨base, limit⟩
  refine ⟨slot, arena', budget', success, taken, ?_, represents'.intact_of limits ?_⟩
  · rw [represents'.meaning_of limits rfl, represents.entries]
    rfl
  · rw [entries_of_cons, total_cost_cons, Nat.add_comm]
    exact room

theorem Intact.insert_checked {store : Lru κ α} (intact : Intact store) (entry : Entry κ α) :
    Realizes (store.insert? entry) (store.meaning.insert entry) := by
  by_cases tooCostly : store.limit ≤ entry.cost
  · have refused := insert_of_too_costly (show store.meaning.limit ≤ entry.cost from tooCostly)
    refine ⟨store, ?_, ?_, intact⟩
    · rw [refused]
      exact if_pos tooCostly
    · rw [refused]
  · obtain ⟨cleared, removed, clearedMeaning, clearedIntact⟩ := intact.remove_checked entry.key
    obtain ⟨trimmed, shed, trimmedMeaning, trimmedIntact⟩ :=
      clearedIntact.trim_checked (store.limit - entry.cost)
    have affordable : entry.cost ≤ store.limit := UInt64.le_of_lt (UInt64.not_le.mp tooCostly)
    have room : (store.limit - entry.cost).toNat = store.limit.toNat - entry.cost.toNat :=
      UInt64.toNat_sub_of_le _ _ affordable
    have costFits : entry.cost.toNat ≤ store.limit.toNat := UInt64.le_iff_toNat_le.mp affordable
    -- What is left after the trim is what the list keeps of the other entries.
    rw [clearedMeaning, RecencyList.remove, RecencyList.trimTo, room] at trimmedMeaning shed
    have limitKept : cleared.budget.limit = store.limit := congrArg RecencyList.limit clearedMeaning
    have sameLimit : trimmed.limit = store.limit := congrArg RecencyList.limit trimmedMeaning
    have kept : trimmed.entries =
        (split (store.limit.toNat - entry.cost.toNat) (store.meaning.others entry.key)).1 :=
      congrArg RecencyList.entries trimmedMeaning
    have absent : ∀ other ∈ trimmed.entries, (other.key == entry.key) = false := by
      intro other member
      rw [kept] at member
      exact others_absent _ _ other ((split_sublist _ _).subset member)
    have bound : totalCost trimmed.entries ≤ store.limit.toNat - entry.cost.toNat := by
      rw [kept]
      exact total_cost_longest_within _ _
    obtain ⟨slot, arena', budget', occupied, taken, meaning', intact'⟩ :=
      trimmedIntact.admit entry absent (by rw [sameLimit]; omega)
    refine ⟨_, ?_, ?_, intact'⟩
    · rw [insert_of_affordable (show ¬ store.meaning.limit ≤ entry.cost from tooCostly), insert?,
        if_neg (show ¬ store.budget.limit ≤ entry.cost from tooCostly)]
      simp only [removed, bind, Except.bind, limitKept, shed, occupied, taken]
      rfl
    · rw [insert_of_affordable (show ¬ store.meaning.limit ≤ entry.cost from tooCostly), meaning',
        trimmedMeaning, kept]
      rfl

/-! ## Operations -/

omit [EquivBEq κ] [LawfulHashable κ] in
theorem Realizes.succeeds {checked : Except Fault (ρ × Lru κ α)} {meant : ρ × RecencyList κ α}
    (realizes : Realizes checked meant) : ∃ outcome, checked = .ok outcome := by
  obtain ⟨store', success, _⟩ := realizes
  exact ⟨_, success⟩

omit [EquivBEq κ] [LawfulHashable κ] in
/-- What an operation would do after a fault does not matter where there is none. -/
theorem Realizes.agrees {checked : Except Fault (ρ × Lru κ α)} {actual : ρ × Lru κ α}
    {meant : ρ × RecencyList κ α} (realizes : Realizes checked meant)
    (follows : ∀ outcome, checked = .ok outcome → actual = outcome) : Agrees actual meant := by
  obtain ⟨store', success, state, intact⟩ := realizes
  rw [follows _ success]
  exact ⟨rfl, state, intact⟩

omit [EquivBEq κ] [LawfulHashable κ] in
theorem Intact.peek_eq {store : Lru κ α} (intact : Intact store) (key : κ) :
    store.peek? key = (store.meaning.find? key).map (·.value) := by
  simp only [peek?, intact.lookup key]

omit [LawfulHashable κ] in
theorem Intact.get_agrees {store : Lru κ α} (intact : Intact store) (key : κ) :
    Agrees (store.get key) (store.meaning.get key) := by
  obtain ⟨store', success, state, intact'⟩ := intact.touch key
  refine ⟨?_, ?_, ?_⟩
  · simp only [get, success]
    rw [RecencyList.get]
    cases store.meaning.find? key <;> rfl
  · simp only [get, success, state]
  · simp only [get, success]
    exact intact'

theorem Intact.contains_eq {store : Lru κ α} (intact : Intact store) (key : κ) :
    store.contains key = (store.meaning.find? key).isSome := by
  obtain ⟨path, vacancies, represents⟩ := intact.represented
  rw [contains, Std.HashMap.contains_eq_isSome_getElem?, represents.indexed, meaning, RecencyList.find?,
    represents.entries, entries_find, Option.isSome_map, Option.isSome_map]

theorem Intact.remove_agrees {store : Lru κ α} (intact : Intact store) (key : κ) :
    Agrees (store.remove key) (store.meaning.remove key) :=
  (intact.remove_checked key).agrees fun _ success => by rw [remove, success]

/-- Removing a resident entry leaves the ones around it. -/
theorem Intact.remove_resident {store : Lru κ α} (intact : Intact store) {fresher colder : List (Entry κ α)}
    {entry : Entry κ α} (parted : store.entries = fresher ++ entry :: colder) :
    Agrees (store.remove entry.key) (some entry, { store.meaning with entries := fresher ++ colder }) := by
  have distinct := intact.distinct_keys
  rw [parted] at distinct
  have notBefore : ∀ other ∈ fresher, ¬ (other.key == entry.key) = true := by
    intro other member
    rw [(distinct_keys_around distinct).2 other (List.mem_append_left _ member)]
    exact Bool.false_ne_true
  have found : store.meaning.find? entry.key = some entry := by
    rw [RecencyList.find?, show store.meaning.entries = _ from parted, List.find?_append,
      List.find?_eq_none.mpr notBefore]
    simp
  have others : store.meaning.others entry.key = fresher ++ colder := by
    rw [RecencyList.others, show store.meaning.entries = _ from parted]
    exact others_around distinct BEq.rfl
  rw [← found, ← others]
  exact intact.remove_agrees entry.key

theorem Intact.trim_agrees {store : Lru κ α} (intact : Intact store) (target : UInt64) :
    Agrees (store.trimTo target) (store.meaning.trimTo target) :=
  (intact.trim_checked target).agrees fun _ success => by rw [trimTo, success]

theorem Intact.clear_agrees {store : Lru κ α} (intact : Intact store) :
    Agrees store.clear store.meaning.clear :=
  intact.clear_checked.agrees fun _ success => by rw [clear, success]

theorem Intact.insert_agrees {store : Lru κ α} (intact : Intact store) (entry : Entry κ α) :
    Agrees (store.insert entry) (store.meaning.insert entry) :=
  (intact.insert_checked entry).agrees fun _ success => by rw [insert, success]

theorem Intact.trim_ok {store : Lru κ α} (intact : Intact store) (target : UInt64) :
    store.trimTo? target = .ok (store.trimTo target) := by
  obtain ⟨outcome, success⟩ := (intact.trim_checked target).succeeds
  rw [trimTo, success]

theorem Intact.clear_ok {store : Lru κ α} (intact : Intact store) : store.clear? = .ok store.clear := by
  obtain ⟨outcome, success⟩ := intact.clear_checked.succeeds
  rw [clear, success]

theorem Intact.remove_ok {store : Lru κ α} (intact : Intact store) (key : κ) :
    store.remove? key = .ok (store.remove key) := by
  obtain ⟨outcome, success⟩ := (intact.remove_checked key).succeeds
  rw [remove, success]

omit [EquivBEq κ] [LawfulHashable κ] in
/-- Setting the limit alone leaves a store that represents the same path. -/
theorem Represents.set_limit {store : Lru κ α} {path : List (Place κ α)} {vacancies : List Nat}
    (represents : Represents store path vacancies) (limit : UInt64) :
    Represents { store with budget := { store.budget with limit := limit } } path vacancies where
  laid := represents.laid
  indexed := represents.indexed
  distinctKeys := represents.distinctKeys
  counted := represents.counted
  exactUse := represents.exactUse

theorem Intact.rescale_checked {store : Lru κ α} (intact : Intact store) (limit : UInt64) :
    Realizes (trimTo? { store with budget := { store.budget with limit := limit } } limit)
      ({ store.meaning with limit := limit }.trimTo limit) := by
  obtain ⟨path, vacancies, represents⟩ := intact.represented
  exact (represents.set_limit limit).trim_realizes limit (Or.inr UInt64.le_rfl)

/-- A multiplier is refused by the store as by the list; else both scale from the base and trim. -/
theorem Intact.rescale_agrees {store : Lru κ α} (intact : Intact store) (multiplier : Multiplier) :
    (∃ invalid, store.rescale multiplier = .error invalid ∧
      store.meaning.rescale multiplier = .error invalid) ∨
    ∃ actual meant, store.rescale multiplier = .ok actual ∧
      store.meaning.rescale multiplier = .ok meant ∧ Agrees actual meant := by
  simp only [rescale, RecencyList.rescale, Budget.rescale]
  cases multiplier.validate with
  | error invalid => exact Or.inl ⟨invalid, rfl, rfl⟩
  | ok _ =>
      refine Or.inr ⟨_, _, rfl, rfl, ?_⟩
      exact (intact.rescale_checked (scaleSize store.budget.base multiplier)).agrees fun _ success => by
        rw [trimTo, success]

end Lru

end MemoryBudget
