import MemoryBudget.Proofs.Lru.Meaning

/-!
# Runs of stores and runs of lists

A store that was built with a limit and has gone through any operations has answered each of them as the plain
list would have, and shows what the list shows: the entries in order, their number, what is in use and the sizes
of the budget.
-/

set_option autoImplicit false

namespace MemoryBudget

namespace Lru

open RecencyList

variable {κ α : Type} [BEq κ] [Hashable κ] [EquivBEq κ] [LawfulHashable κ]

/-- All that can be seen of a store without changing it is what the list shows. -/
structure Shows (store : Lru κ α) (list : RecencyList κ α) : Prop where
  entries : store.entries = list.entries
  count : store.count = list.count
  empty : store.isEmpty = list.entries.isEmpty
  used : store.used.toNat = list.used
  limit : store.limit = list.limit
  base : store.budget.base = list.base

omit [EquivBEq κ] [LawfulHashable κ] in
theorem Intact.shows_meaning {store : Lru κ α} (intact : Intact store) : Shows store store.meaning where
  entries := rfl
  count := intact.exact_count
  empty := intact.is_empty
  used := intact.exact_use
  limit := rfl
  base := rfl

/-- One operation, whichever it is, is the operation on the list. -/
theorem Intact.perform_agrees {store : Lru κ α} (intact : Intact store) (operation : Operation κ α) :
    Agrees (store.perform operation) (store.meaning.perform operation) := by
  cases operation with
  | insert entry =>
      obtain ⟨outcome, state, intact'⟩ := intact.insert_agrees entry
      exact ⟨congrArg Outcome.placed outcome, state, intact'⟩
  | get key =>
      obtain ⟨outcome, state, intact'⟩ := intact.get_agrees key
      exact ⟨congrArg Outcome.found outcome, state, intact'⟩
  | peek key => exact ⟨congrArg Outcome.found (intact.peek_eq key), rfl, intact⟩
  | contains key => exact ⟨congrArg Outcome.present (intact.contains_eq key), rfl, intact⟩
  | remove key =>
      obtain ⟨outcome, state, intact'⟩ := intact.remove_agrees key
      exact ⟨congrArg Outcome.removed outcome, state, intact'⟩
  | trimTo target =>
      obtain ⟨outcome, state, intact'⟩ := intact.trim_agrees target
      exact ⟨congrArg Outcome.evicted outcome, state, intact'⟩
  | clear =>
      obtain ⟨outcome, state, intact'⟩ := intact.clear_agrees
      exact ⟨congrArg Outcome.evicted outcome, state, intact'⟩
  | rescale multiplier =>
      simp only [perform, RecencyList.perform]
      rcases intact.rescale_agrees multiplier with ⟨invalid, actual, meant⟩ | ⟨actual, meant, ok, ok', agrees⟩
      · rw [actual, meant]
        exact ⟨rfl, rfl, intact⟩
      · rw [ok, ok']
        exact ⟨congrArg (fun entries => Outcome.rescaled (.ok entries)) agrees.outcome, agrees.state,
          agrees.intact⟩

/-- The outcomes of a run are those of the list, one by one. -/
theorem Intact.run_agrees {store : Lru κ α} (intact : Intact store) (operations : List (Operation κ α)) :
    Agrees (store.run operations) (store.meaning.run operations) := by
  induction operations generalizing store with
  | nil => exact ⟨rfl, rfl, intact⟩
  | cons operation rest ih =>
      obtain ⟨outcome, state, intact'⟩ := intact.perform_agrees operation
      obtain ⟨outcomes, state', intact''⟩ := ih intact'
      rw [state] at outcomes state'
      refine ⟨?_, state', intact''⟩
      simp only [run, RecencyList.run, outcome, outcomes]

/-- Whatever is done to a store, it cannot be told from the list of its entries, freshest first: it answers every
operation as the list does, and afterwards it shows what the list shows. No two entries have equal keys. -/
theorem run_behaves_as_recency_list (limit : UInt64) (operations : List (Operation κ α)) :
    ((ofLimit limit : Lru κ α).run operations).1 = ((RecencyList.ofLimit limit).run operations).1 ∧
      Shows ((ofLimit limit : Lru κ α).run operations).2 ((RecencyList.ofLimit limit).run operations).2 ∧
      DistinctKeys ((RecencyList.ofLimit limit : RecencyList κ α).run operations).2.entries := by
  obtain ⟨outcomes, state, intact⟩ := (of_limit_intact limit).run_agrees operations
  rw [of_limit_meaning] at outcomes state
  rw [← state]
  exact ⟨outcomes, intact.shows_meaning, intact.distinct_keys⟩

/-- A replacement by a costlier value evicts the coldest of the other entries in the same operation. -/
theorem replacement_evicts_the_coldest :
    let operations : List (Operation Nat String) :=
      [.insert ⟨1, "a", 6⟩, .insert ⟨2, "b", 6⟩, .insert ⟨3, "c", 6⟩, .get 1, .insert ⟨3, "d", 12⟩]
    ((ofLimit 20 : Lru Nat String).run operations).1.getLast? =
        some (.placed (.admitted (some ⟨3, "c", 6⟩) [⟨2, "b", 6⟩])) ∧
      ((ofLimit 20 : Lru Nat String).run operations).2.entries = [⟨3, "d", 12⟩, ⟨1, "a", 6⟩] := by
  intro operations
  obtain ⟨outcomes, shows, _⟩ := run_behaves_as_recency_list 20 operations
  rw [outcomes, shows.entries]
  exact ⟨rfl, rfl⟩

end Lru

end MemoryBudget
