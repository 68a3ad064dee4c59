import MemoryBudget.Proofs.Cache.Steps

/-!
# Stores under pressure

What stays of a store that gives way to memory pressure: its freshest entries, as far as they may, in the same order.
Giving way to the same pressure once more finds nothing to evict and leaves the very same store.
-/

set_option autoImplicit false

namespace MemoryBudget

namespace Lru

open RecencyList

variable {κ α : Type} [BEq κ] [Hashable κ]

/-- Gives way to memory pressure; from `clearsAt` on, everything goes. -/
def giveWay (clearsAt pressure : Pressure) (store : Lru κ α) : List (Entry κ α) × Lru κ α :=
  if clearsAt.level ≤ pressure.level then store.clear else store.trim pressure

/-- Where nothing else is said, everything goes in the background. -/
theorem trim_eq (pressure : Pressure) (store : Lru κ α) :
    store.trim pressure = store.giveWay Pressure.background pressure := by
  unfold giveWay
  by_cases clears : Pressure.background.level ≤ pressure.level
  · rw [if_pos clears, trim, Pressure.retention, if_pos clears]
  · rw [if_neg clears]

/-- The freshest entries stay within the same limits, and a second time there is nothing to evict. -/
structure Settles (evict : Lru κ α → List (Entry κ α) × Lru κ α) (store : Lru κ α) : Prop where
  leading : (evict store).2.entries <+: store.entries
  limit : (evict store).2.limit = store.limit
  intact : Intact (evict store).2
  again : evict (evict store).2 = ([], (evict store).2)

theorem trim_to_of_within {store : Lru κ α} {target : UInt64} (within : store.used ≤ target) :
    store.trimTo target = ([], store) := by
  have shed : store.trimTo? target = .ok ([], store) := shed_within _ within
  rw [trimTo, shed]

theorem Intact.clear_of_empty {store : Lru κ α} (intact : Intact store) (empty : store.entries = []) :
    store.clear = ([], store) := by
  obtain ⟨path, vacancies, represents⟩ := intact.represented
  rw [represents.entries] at empty
  obtain rfl : path = [] := List.map_eq_nil_iff.mp empty
  have nothingLeft : store.arena.coldest = none := represents.laid.linked.coldest
  have drained : store.clear? = .ok ([], store) := by
    rw [clear?]
    cases store.arena.slots.size with
    | zero => rfl
    | succ steps => rw [drain?, nothingLeft]
  rw [clear, drained]

/-- A store without entries uses nothing, however it came to that. -/
theorem Intact.usage_of_empty {store : Lru κ α} (intact : Intact store) (empty : store.entries = []) :
    store.usage = { limit := store.limit, used := 0, count := 0 } := by
  have used : store.used = 0 := by
    apply UInt64.toNat_inj.mp
    rw [intact.exact_use, empty]
    rfl
  have count : store.count = 0 := by
    rw [intact.exact_count, empty]
    rfl
  rw [usage, used, count]

structure Halved (before after : Usage) : Prop where
  limit : after.limit = before.limit
  used : after.used ≤ halfSize before.limit

def Vacated (before after : Usage) : Prop :=
  after = { limit := before.limit, used := 0, count := 0 }

theorem give_way_nothing {clearsAt pressure : Pressure} (holds : ¬ clearsAt.level ≤ pressure.level)
    (mild : pressure.retention = .everything) (store : Lru κ α) : store.giveWay clearsAt pressure = ([], store) := by
  rw [giveWay, if_neg holds, trim, mild]

theorem Settles.vacated {store : Lru κ α} {evict : Lru κ α → List (Entry κ α) × Lru κ α}
    (settles : Settles evict store) (empty : (evict store).2.entries = []) :
    Vacated store.usage (evict store).2.usage := by
  rw [Vacated, settles.intact.usage_of_empty empty, settles.limit]
  rfl

variable [EquivBEq κ] [LawfulHashable κ] {store : Lru κ α}

theorem Intact.trim_to_within (intact : Intact store) (target : UInt64) : (store.trimTo target).2.used ≤ target := by
  obtain ⟨_, state, intact'⟩ := intact.trim_agrees target
  rw [UInt64.le_iff_toNat_le, intact'.exact_use,
    show (store.trimTo target).2.entries = longestWithin target.toNat store.entries from
      congrArg RecencyList.entries state]
  exact total_cost_longest_within _ _

theorem Intact.trim_to_settles (intact : Intact store) (target : UInt64) : Settles (·.trimTo target) store where
  leading := by
    rw [(intact.trim_sheds target).parted]
    exact List.prefix_append _ _
  limit := congrArg RecencyList.limit (intact.trim_agrees target).state
  intact := (intact.trim_agrees target).intact
  again := trim_to_of_within (intact.trim_to_within target)

theorem Intact.clear_empties (intact : Intact store) : store.clear.2.entries = [] :=
  congrArg RecencyList.entries intact.clear_agrees.state

theorem Intact.clear_settles (intact : Intact store) : Settles clear store where
  leading := by
    rw [intact.clear_empties]
    exact List.nil_prefix
  limit := congrArg RecencyList.limit intact.clear_agrees.state
  intact := intact.clear_agrees.intact
  again := intact.clear_agrees.intact.clear_of_empty intact.clear_empties

theorem Intact.trim_settles (intact : Intact store) (pressure : Pressure) : Settles (·.trim pressure) store := by
  unfold trim
  cases pressure.retention with
  | everything => exact ⟨List.prefix_refl _, rfl, intact, rfl⟩
  | half =>
      have settles := intact.trim_to_settles (halfSize store.limit)
      refine ⟨settles.leading, settles.limit, settles.intact, ?_⟩
      -- The target is taken from the limit, which has not changed.
      show trimTo _ (halfSize (store.trimTo (halfSize store.limit)).2.limit) = _
      rw [settles.limit]
      exact settles.again
  | nothing => exact intact.clear_settles

theorem Intact.give_way_settles (intact : Intact store) (clearsAt pressure : Pressure) :
    Settles (giveWay clearsAt pressure) store := by
  unfold giveWay
  by_cases clears : clearsAt.level ≤ pressure.level
  · simp only [if_pos clears]
    exact intact.clear_settles
  · simp only [if_neg clears]
    exact intact.trim_settles pressure

theorem Intact.give_way_halves (intact : Intact store) {clearsAt pressure : Pressure}
    (holds : ¬ clearsAt.level ≤ pressure.level) (firm : pressure.retention = .half) :
    Halved store.usage (store.giveWay clearsAt pressure).2.usage := by
  have settles := intact.give_way_settles clearsAt pressure
  refine ⟨settles.limit, ?_⟩
  rw [giveWay, if_neg holds, trim, firm]
  exact intact.trim_to_within _

theorem Intact.give_way_empties (intact : Intact store) {clearsAt pressure : Pressure}
    (clears : clearsAt.level ≤ pressure.level) : (store.giveWay clearsAt pressure).2.entries = [] := by
  rw [giveWay, if_pos clears]
  exact intact.clear_empties

end Lru

end MemoryBudget
