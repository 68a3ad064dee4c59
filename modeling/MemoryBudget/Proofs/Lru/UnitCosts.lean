import MemoryBudget.Proofs.Lru.Meaning

/-!
# Stores of entries that cost one each

Where every entry costs one, what is in use is the number of entries, and making room is counting. Each operation is
stated as what it does to the list of entries.
-/

set_option autoImplicit false

namespace MemoryBudget

namespace RecencyList

variable {κ α : Type}

theorem total_cost_of_ones {entries : List (Entry κ α)} (ones : ∀ entry ∈ entries, entry.cost = 1) :
    totalCost entries = entries.length := by
  induction entries with
  | nil => rfl
  | cons entry rest ih =>
      rw [List.forall_mem_cons] at ones
      rw [total_cost_cons, ones.1, ih ones.2, List.length_cons, Nat.add_comm]
      rfl

/-- Within a target is who stands before it. -/
theorem longest_within_of_ones {entries : List (Entry κ α)} (ones : ∀ entry ∈ entries, entry.cost = 1) (target : Nat) :
    longestWithin target entries = entries.take target := by
  induction entries generalizing target with
  | nil => rw [List.take_nil, longestWithin]
  | cons entry rest ih =>
      rw [List.forall_mem_cons] at ones
      have one : entry.cost.toNat = 1 := by
        rw [ones.1]
        rfl
      rw [longestWithin, one]
      cases target with
      | zero => rfl
      | succ target => rw [if_pos (Nat.le_add_left 1 target), Nat.add_sub_cancel, ih ones.2, List.take_succ_cons]

end RecencyList

namespace Lru

open RecencyList

variable {κ α : Type} [BEq κ] [Hashable κ]

structure UnitPriced (limit : UInt64) (store : Lru κ α) : Prop where
  intact : Intact store
  limit : store.limit = limit
  ones : ∀ entry ∈ store.entries, entry.cost = 1

def unit (key : κ) (value : α) : Entry κ α := ⟨key, value, 1⟩

theorem of_limit_unit_priced (limit : UInt64) : UnitPriced limit (ofLimit limit : Lru κ α) where
  intact := of_limit_intact limit
  limit := rfl
  ones := fun _ none => nomatch none

variable {limit : UInt64} {store : Lru κ α}

theorem UnitPriced.length_le (units : UnitPriced limit store) : store.entries.length ≤ limit.toNat := by
  rw [← total_cost_of_ones units.ones, ← units.limit]
  exact units.intact.total_cost_le

theorem UnitPriced.others_ones (units : UnitPriced limit store) (key : κ) :
    ∀ entry ∈ store.meaning.others key, entry.cost = 1 :=
  fun entry member => units.ones entry (List.mem_filter.mp member).1

/-- Within a limit of one there is no room for anything. -/
theorem UnitPriced.insert_refused (units : UnitPriced limit store) (narrow : limit ≤ 1) (key : κ) (value : α) :
    store.insert (unit key value) = (.refused (unit key value), store) := by
  have tooCostly : store.budget.limit ≤ (unit key value).cost := by
    rw [show store.budget.limit = limit from units.limit]
    exact narrow
  rw [Lru.insert, insert?, if_pos tooCostly]

variable [EquivBEq κ] [LawfulHashable κ]

omit [LawfulHashable κ] in
theorem UnitPriced.get (units : UnitPriced limit store) (key : κ) :
    (store.get key).1 = (store.meaning.find? key).map (·.value) ∧
      (store.get key).2.entries = (match store.meaning.find? key with
        | none => store.entries
        | some entry => entry :: store.meaning.others key) ∧
      UnitPriced limit (store.get key).2 := by
  obtain ⟨outcome, state, intact⟩ := units.intact.get_agrees key
  have entries := congrArg RecencyList.entries state
  have sameLimit := congrArg RecencyList.limit state
  rw [RecencyList.get] at outcome entries sameLimit
  cases found : store.meaning.find? key with
  | none =>
      rw [found] at outcome entries sameLimit
      refine ⟨outcome, entries, intact, sameLimit.trans units.limit, ?_⟩
      rw [show (store.get key).2.entries = store.entries from entries]
      exact units.ones
  | some entry =>
      rw [found] at outcome entries sameLimit
      refine ⟨outcome, entries, intact, sameLimit.trans units.limit, ?_⟩
      rw [show (store.get key).2.entries = entry :: store.meaning.others key from entries]
      exact List.forall_mem_cons.mpr ⟨units.ones entry (List.mem_of_find?_eq_some found), units.others_ones key⟩

theorem UnitPriced.remove (units : UnitPriced limit store) (key : κ) :
    (store.remove key).1 = store.meaning.find? key ∧ (store.remove key).2.entries = store.meaning.others key ∧
      UnitPriced limit (store.remove key).2 := by
  obtain ⟨outcome, state, intact⟩ := units.intact.remove_agrees key
  have entries : (store.remove key).2.entries = store.meaning.others key := congrArg RecencyList.entries state
  refine ⟨outcome, entries, intact, (congrArg RecencyList.limit state).trans units.limit, ?_⟩
  rw [entries]
  exact units.others_ones key

/-- What is put goes to the front, and no more of the others stay than there is room for beside it. -/
theorem UnitPriced.insert (units : UnitPriced limit store) (roomy : 2 ≤ limit) (key : κ) (value : α) :
    (∃ evicted, (store.insert (unit key value)).1 = .admitted (store.meaning.find? key) evicted) ∧
      (store.insert (unit key value)).2.entries =
        unit key value :: (store.meaning.others key).take (limit.toNat - 1) ∧
      UnitPriced limit (store.insert (unit key value)).2 := by
  obtain ⟨outcome, state, intact⟩ := units.intact.insert_agrees (unit key value)
  have affordable : ¬ store.meaning.limit ≤ (unit key value).cost := by
    rw [show store.meaning.limit = limit from units.limit]
    exact UInt64.not_le.mpr (UInt64.lt_of_lt_of_le (show (1 : UInt64) < 2 by decide) roomy)
  rw [insert_of_affordable affordable] at outcome state
  have entries := congrArg RecencyList.entries state
  have kept : (split (store.meaning.limit.toNat - (unit key value).cost.toNat)
      (store.meaning.others (unit key value).key)).1 = (store.meaning.others key).take (limit.toNat - 1) := by
    rw [show store.meaning.limit = limit from units.limit]
    exact longest_within_of_ones (units.others_ones key) _
  simp only [kept] at entries
  refine ⟨⟨_, outcome⟩, entries, intact, (congrArg RecencyList.limit state).trans units.limit, ?_⟩
  rw [show (store.insert (unit key value)).2.entries = _ from entries]
  exact List.forall_mem_cons.mpr ⟨rfl, fun entry member => units.others_ones key entry (List.mem_of_mem_take member)⟩

end Lru

end MemoryBudget
