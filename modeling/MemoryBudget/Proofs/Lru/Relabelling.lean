import MemoryBudget.Proofs.Lru.Meaning

/-!
# Stores do not look into their values

What a store does depends on keys and costs alone. When its values are mapped, it does the same with the mapped
values: every operation commutes with the map.
-/

set_option autoImplicit false

namespace MemoryBudget

variable {κ α γ ρ ρ' : Type}

def Entry.relabel (map : α → γ) (entry : Entry κ α) : Entry κ γ :=
  { key := entry.key, value := map entry.value, cost := entry.cost }

@[simp] theorem Entry.relabel_key (map : α → γ) (entry : Entry κ α) : (entry.relabel map).key = entry.key := rfl

@[simp] theorem Entry.relabel_cost (map : α → γ) (entry : Entry κ α) : (entry.relabel map).cost = entry.cost := rfl

def Placement.relabel (map : α → γ) : Placement κ α → Placement κ γ
  | .refused entry => .refused (entry.relabel map)
  | .admitted previous evicted => .admitted (previous.map (Entry.relabel map)) (evicted.map (Entry.relabel map))

namespace RecencyList

def relabel (map : α → γ) (store : RecencyList κ α) : RecencyList κ γ :=
  { base := store.base, limit := store.limit, entries := store.entries.map (Entry.relabel map) }

theorem total_cost_relabel (map : α → γ) (entries : List (Entry κ α)) :
    totalCost (entries.map (Entry.relabel map)) = totalCost entries := by
  induction entries with
  | nil => rfl
  | cons entry rest ih => rw [List.map_cons, total_cost_cons, total_cost_cons, Entry.relabel_cost, ih]

theorem longest_within_relabel (map : α → γ) (target : Nat) (entries : List (Entry κ α)) :
    longestWithin target (entries.map (Entry.relabel map)) =
      (longestWithin target entries).map (Entry.relabel map) := by
  induction entries generalizing target with
  | nil => rfl
  | cons entry rest ih =>
      rw [List.map_cons, longestWithin, longestWithin]
      by_cases fits : entry.cost.toNat ≤ target
      · have fits' : (entry.relabel map).cost.toNat ≤ target := fits
        rw [if_pos fits, if_pos fits', ih, List.map_cons, Entry.relabel_cost]
      · have fits' : ¬ (entry.relabel map).cost.toNat ≤ target := fits
        rw [if_neg fits, if_neg fits', List.map_nil]

theorem split_relabel (map : α → γ) (target : Nat) (entries : List (Entry κ α)) :
    split target (entries.map (Entry.relabel map)) =
      ((split target entries).1.map (Entry.relabel map), (split target entries).2.map (Entry.relabel map)) := by
  rw [split, split, longest_within_relabel, List.length_map, ← List.map_drop, ← List.map_reverse]

theorem trim_relabel (map : α → γ) (store : RecencyList κ α) (target : UInt64) :
    (store.relabel map).trimTo target =
      ((store.trimTo target).1.map (Entry.relabel map), (store.trimTo target).2.relabel map) := by
  rw [trimTo, relabel, split_relabel]
  rfl

theorem clear_relabel (map : α → γ) (store : RecencyList κ α) :
    (store.relabel map).clear = (store.clear.1.map (Entry.relabel map), store.clear.2.relabel map) := by
  rw [clear, relabel, ← List.map_reverse]
  rfl

theorem rescale_relabel (map : α → γ) (store : RecencyList κ α) (multiplier : Multiplier) :
    (store.relabel map).rescale multiplier =
      (store.rescale multiplier).map fun outcome =>
        (outcome.1.map (Entry.relabel map), outcome.2.relabel map) := by
  rw [rescale, rescale]
  cases multiplier.validate with
  | error invalid => rfl
  | ok _ =>
      exact congrArg Except.ok
        (trim_relabel map { store with limit := scaleSize store.base multiplier } (scaleSize store.base multiplier))

variable [BEq κ]

theorem find_relabel (map : α → γ) (store : RecencyList κ α) (key : κ) :
    (store.relabel map).find? key = (store.find? key).map (Entry.relabel map) := by
  rw [find?, relabel, List.find?_map]
  rfl

theorem others_relabel (map : α → γ) (store : RecencyList κ α) (key : κ) :
    (store.relabel map).others key = (store.others key).map (Entry.relabel map) := by
  rw [others, relabel, List.filter_map]
  rfl

theorem get_relabel (map : α → γ) (store : RecencyList κ α) (key : κ) :
    (store.relabel map).get key = ((store.get key).1.map map, (store.get key).2.relabel map) := by
  rw [get, get, find_relabel, others_relabel]
  cases store.find? key <;> rfl

theorem remove_relabel (map : α → γ) (store : RecencyList κ α) (key : κ) :
    (store.relabel map).remove key =
      ((store.remove key).1.map (Entry.relabel map), (store.remove key).2.relabel map) := by
  rw [remove, find_relabel, others_relabel]
  rfl

theorem insert_relabel (map : α → γ) (store : RecencyList κ α) (entry : Entry κ α) :
    (store.relabel map).insert (entry.relabel map) =
      ((store.insert entry).1.relabel map, (store.insert entry).2.relabel map) := by
  simp only [insert, Entry.relabel_key, Entry.relabel_cost, find_relabel, others_relabel]
  rw [show (store.relabel map).limit = store.limit from rfl, split_relabel]
  split_ifs <;> rfl

end RecencyList

namespace Lru

open RecencyList

variable [BEq κ] [Hashable κ]

/-- Two intact stores with the same keys and costs in the same order, where one has the mapped values. -/
structure Relabels (map : α → γ) (store : Lru κ α) (mapped : Lru κ γ) : Prop where
  source : Intact store
  target : Intact mapped
  same : mapped.meaning = store.meaning.relabel map

variable {map : α → γ} {store : Lru κ α} {mapped : Lru κ γ}

theorem Relabels.limit (relabels : Relabels map store mapped) : mapped.limit = store.limit :=
  congrArg RecencyList.limit relabels.same

theorem Relabels.entries (relabels : Relabels map store mapped) :
    mapped.entries = store.entries.map (Entry.relabel map) :=
  congrArg RecencyList.entries relabels.same

theorem Relabels.usage (relabels : Relabels map store mapped) : mapped.usage = store.usage := by
  have used : mapped.used = store.used := by
    refine UInt64.toNat.inj ?_
    rw [relabels.target.exact_use, relabels.source.exact_use, relabels.entries,
      RecencyList.total_cost_relabel]
  have count : mapped.count = store.count := by
    rw [relabels.target.exact_count, relabels.source.exact_count, relabels.entries, List.length_map]
  rw [Lru.usage, Lru.usage, relabels.limit, used, count]

theorem Relabels.peek (relabels : Relabels map store mapped) (key : κ) :
    mapped.peek? key = (store.peek? key).map map := by
  rw [relabels.target.peek_eq, relabels.source.peek_eq, relabels.same, find_relabel, Option.map_map, Option.map_map]
  rfl

/-- What agrees with an operation on a list, and what agrees with the same operation on the mapped list. -/
theorem Relabels.of_agrees {actual : ρ × Lru κ α} {meant : ρ × RecencyList κ α} {actual' : ρ' × Lru κ γ}
    {meant' : ρ' × RecencyList κ γ} (agrees : Agrees actual meant) (agrees' : Agrees actual' meant')
    {outcome : ρ → ρ'} (same : meant' = (outcome meant.1, meant.2.relabel map)) :
    actual'.1 = outcome actual.1 ∧ Relabels map actual.2 actual'.2 := by
  refine ⟨?_, agrees.intact, agrees'.intact, ?_⟩
  · rw [agrees'.outcome, agrees.outcome, same]
  · rw [agrees'.state, agrees.state, same]

variable [EquivBEq κ] [LawfulHashable κ]

theorem Relabels.contains (relabels : Relabels map store mapped) (key : κ) :
    mapped.contains key = store.contains key := by
  rw [relabels.target.contains_eq, relabels.source.contains_eq, relabels.same, find_relabel, Option.isSome_map]

omit [LawfulHashable κ] in
theorem Relabels.get (relabels : Relabels map store mapped) (key : κ) :
    (mapped.get key).1 = (store.get key).1.map map ∧ Relabels map (store.get key).2 (mapped.get key).2 := by
  refine Relabels.of_agrees (relabels.source.get_agrees key) (relabels.target.get_agrees key) ?_
  rw [relabels.same, get_relabel]

theorem Relabels.remove (relabels : Relabels map store mapped) (key : κ) :
    (mapped.remove key).1 = (store.remove key).1.map (Entry.relabel map) ∧
      Relabels map (store.remove key).2 (mapped.remove key).2 := by
  refine Relabels.of_agrees (relabels.source.remove_agrees key) (relabels.target.remove_agrees key) ?_
  rw [relabels.same, remove_relabel]

theorem Relabels.insert (relabels : Relabels map store mapped) (entry : Entry κ α) :
    (mapped.insert (entry.relabel map)).1 = (store.insert entry).1.relabel map ∧
      Relabels map (store.insert entry).2 (mapped.insert (entry.relabel map)).2 := by
  refine Relabels.of_agrees (relabels.source.insert_agrees entry) (relabels.target.insert_agrees _) ?_
  rw [relabels.same, insert_relabel]

theorem Relabels.trim_to (relabels : Relabels map store mapped) (target : UInt64) :
    (mapped.trimTo target).1 = (store.trimTo target).1.map (Entry.relabel map) ∧
      Relabels map (store.trimTo target).2 (mapped.trimTo target).2 := by
  refine Relabels.of_agrees (relabels.source.trim_agrees target) (relabels.target.trim_agrees target) ?_
  rw [relabels.same, trim_relabel]

theorem Relabels.clear (relabels : Relabels map store mapped) :
    mapped.clear.1 = store.clear.1.map (Entry.relabel map) ∧ Relabels map store.clear.2 mapped.clear.2 := by
  refine Relabels.of_agrees relabels.source.clear_agrees relabels.target.clear_agrees ?_
  rw [relabels.same, clear_relabel]

theorem Relabels.trim (relabels : Relabels map store mapped) (pressure : Pressure) :
    (mapped.trim pressure).1 = (store.trim pressure).1.map (Entry.relabel map) ∧
      Relabels map (store.trim pressure).2 (mapped.trim pressure).2 := by
  rw [Lru.trim, Lru.trim, relabels.limit]
  cases pressure.retention with
  | everything => exact ⟨rfl, relabels⟩
  | half => exact relabels.trim_to _
  | nothing => exact relabels.clear

theorem Relabels.rescale (relabels : Relabels map store mapped) (multiplier : Multiplier) :
    (∃ invalid, store.rescale multiplier = .error invalid ∧ mapped.rescale multiplier = .error invalid) ∨
    ∃ outcome outcome', store.rescale multiplier = .ok outcome ∧ mapped.rescale multiplier = .ok outcome' ∧
      outcome'.1 = outcome.1.map (Entry.relabel map) ∧ Relabels map outcome.2 outcome'.2 := by
  have same := rescale_relabel map store.meaning multiplier
  rw [← relabels.same] at same
  rcases relabels.source.rescale_agrees multiplier with ⟨invalid, actual, meant⟩ | ⟨actual, meant, ok, ok₁, agrees⟩
  · rw [meant] at same
    rcases relabels.target.rescale_agrees multiplier with ⟨invalid', actual', meant'⟩ | ⟨_, _, _, ok', _⟩
    · rw [meant'] at same
      cases same
      exact Or.inl ⟨invalid, actual, actual'⟩
    · rw [ok'] at same
      cases same
  · rw [ok₁] at same
    rcases relabels.target.rescale_agrees multiplier with ⟨_, _, meant'⟩ | ⟨actual', meant', ok', ok₁', agrees'⟩
    · rw [meant'] at same
      cases same
    · rw [ok₁'] at same
      obtain ⟨outcome, relabelled⟩ := Relabels.of_agrees agrees agrees' (Except.ok.inj same)
      exact Or.inr ⟨actual, actual', ok, ok', outcome, relabelled⟩

end Lru

end MemoryBudget
