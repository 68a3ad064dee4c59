import MemoryBudget.Lru.RecencyList
import Mathlib.Data.List.Basic
import Mathlib.Tactic.Common

/-!
# Lists of entries in order of recency

The laws of the plain list on which the meaning of a store rests. No two entries have equal keys, so the entry
under a key stands at one place of the list, and taking it out leaves what stands around it. Trimming keeps the
longest prefix within the target; evicting the coldest entry while the target is exceeded keeps the same one.
-/

set_option autoImplicit false

namespace MemoryBudget

namespace RecencyList

variable {κ α : Type}

@[simp] theorem total_cost_nil : totalCost ([] : List (Entry κ α)) = 0 := rfl

@[simp] theorem total_cost_cons (entry : Entry κ α) (rest : List (Entry κ α)) :
    totalCost (entry :: rest) = entry.cost.toNat + totalCost rest := rfl

@[simp] theorem total_cost_append (entries rest : List (Entry κ α)) :
    totalCost (entries ++ rest) = totalCost entries + totalCost rest := by
  induction entries with
  | nil => simp
  | cons entry entries ih =>
      rw [List.cons_append, total_cost_cons, total_cost_cons, ih]
      omega

/-! ## Keeping the longest prefix -/

theorem longest_within_leads (target : Nat) (entries : List (Entry κ α)) :
    longestWithin target entries <+: entries := by
  induction entries generalizing target with
  | nil => exact List.nil_prefix
  | cons entry rest ih =>
      rw [longestWithin]
      split_ifs
      · exact List.cons_prefix_cons.mpr ⟨rfl, ih _⟩
      · exact List.nil_prefix

theorem total_cost_longest_within (target : Nat) (entries : List (Entry κ α)) :
    totalCost (longestWithin target entries) ≤ target := by
  induction entries generalizing target with
  | nil => exact Nat.zero_le _
  | cons entry rest ih =>
      rw [longestWithin]
      split_ifs with fits
      · have bound := ih (target - entry.cost.toNat)
        rw [total_cost_cons]
        omega
      · exact Nat.zero_le _

theorem longest_within_is_longest {target : Nat} {entries kept : List (Entry κ α)} (leads : kept <+: entries)
    (within : totalCost kept ≤ target) : kept.length ≤ (longestWithin target entries).length := by
  induction entries generalizing target kept with
  | nil => simp_all
  | cons entry rest ih =>
      cases kept with
      | nil => exact Nat.zero_le _
      | cons first kept =>
          obtain ⟨rfl, leadsRest⟩ := List.cons_prefix_cons.mp leads
          rw [total_cost_cons] at within
          rw [longestWithin, if_pos (by omega)]
          exact Nat.succ_le_succ (ih leadsRest (by omega))

theorem longest_within_of_le {target : Nat} {entries : List (Entry κ α)}
    (within : totalCost entries ≤ target) : longestWithin target entries = entries := by
  induction entries generalizing target with
  | nil => rfl
  | cons entry rest ih =>
      rw [total_cost_cons] at within
      rw [longestWithin, if_pos (by omega), ih (by omega)]

/-- The coldest entry is not kept if the target is exceeded. -/
theorem longest_within_of_exceeded {target : Nat} {entries : List (Entry κ α)} {coldest : Entry κ α}
    (exceeded : target < totalCost (entries ++ [coldest])) :
    longestWithin target (entries ++ [coldest]) = longestWithin target entries := by
  induction entries generalizing target with
  | nil =>
      have large : ¬ coldest.cost.toNat ≤ target := by simpa using exceeded
      simp [longestWithin, large]
  | cons entry rest ih =>
      rw [List.cons_append, longestWithin, longestWithin]
      split_ifs with fits
      · rw [ih]
        simp only [List.cons_append, total_cost_cons] at exceeded
        omega
      · rfl

theorem split_of_within {target : Nat} {entries : List (Entry κ α)}
    (within : totalCost entries ≤ target) : split target entries = (entries, []) := by
  simp [split, longest_within_of_le within]

theorem split_of_exceeded {target : Nat} {entries : List (Entry κ α)} {coldest : Entry κ α}
    (exceeded : target < totalCost (entries ++ [coldest])) :
    split target (entries ++ [coldest]) =
      ((split target entries).1, coldest :: (split target entries).2) := by
  have shorter := (longest_within_leads target entries).length_le
  simp only [split, longest_within_of_exceeded exceeded, List.drop_append_of_le_length shorter,
    List.reverse_append, List.reverse_singleton, List.singleton_append]

/-- Nothing is lost: what is kept and what is evicted, turned round, are the list. -/
theorem split_append_reverse (target : Nat) (entries : List (Entry κ α)) :
    (split target entries).1 ++ (split target entries).2.reverse = entries := by
  rw [split, List.reverse_reverse]
  exact List.prefix_iff_eq_append.mp (longest_within_leads target entries)

theorem split_sublist (target : Nat) (entries : List (Entry κ α)) :
    (split target entries).1.Sublist entries :=
  (longest_within_leads target entries).sublist

theorem total_cost_split_le (target : Nat) (entries : List (Entry κ α)) :
    totalCost (split target entries).1 ≤ totalCost entries := by
  have whole := congrArg totalCost (split_append_reverse target entries)
  rw [total_cost_append] at whole
  omega

/-! ## Rescaling -/

theorem rescale_of_invalid {multiplier : Multiplier} {invalid : InvalidMultiplier}
    (refused : multiplier.validate = .error invalid) (store : RecencyList κ α) :
    store.rescale multiplier = .error invalid := by
  rw [rescale, refused]
  rfl

theorem rescale_of_valid {multiplier : Multiplier} (valid : multiplier.validate = .ok ())
    (store : RecencyList κ α) :
    store.rescale multiplier =
      .ok ({ store with limit := scaleSize store.base multiplier }.trimTo (scaleSize store.base multiplier)) := by
  rw [rescale, valid]
  rfl

/-! ## Different keys -/

variable [BEq κ]

def DistinctKeys (entries : List (Entry κ α)) : Prop :=
  entries.Pairwise fun one other => (one.key == other.key) = false

variable [EquivBEq κ]

theorem distinct_keys_around {entries rest : List (Entry κ α)} {entry : Entry κ α}
    (distinct : DistinctKeys (entries ++ entry :: rest)) :
    DistinctKeys (entries ++ rest) ∧ ∀ other ∈ entries ++ rest, (other.key == entry.key) = false := by
  rw [DistinctKeys, List.pairwise_append, List.pairwise_cons] at distinct
  obtain ⟨fresher, ⟨colderThan, colder⟩, across⟩ := distinct
  refine ⟨List.pairwise_append.mpr ⟨fresher, colder, fun one member other after =>
    across one member other (List.mem_cons_of_mem _ after)⟩, ?_⟩
  intro other member
  rcases List.mem_append.mp member with before | after
  · exact across other before entry List.mem_cons_self
  · rw [BEq.comm]
    exact colderThan other after

theorem distinct_keys_cons {entry : Entry κ α} {entries : List (Entry κ α)}
    (distinct : DistinctKeys entries) (absent : ∀ other ∈ entries, (other.key == entry.key) = false) :
    DistinctKeys (entry :: entries) := by
  refine List.pairwise_cons.mpr ⟨fun other member => ?_, distinct⟩
  rw [BEq.comm]
  exact absent other member

/-- Equal keys are equal to the same ones. -/
theorem beq_key_congr {one other : κ} (same : (one == other) = true) (key : κ) :
    (key == one) = (key == other) := by
  rw [Bool.eq_iff_iff]
  exact ⟨fun equal => BEq.trans equal same, fun equal => BEq.trans equal (BEq.symm same)⟩

/-- The entries beside the one under a key are the entries under other keys. -/
theorem others_around {entries rest : List (Entry κ α)} {entry : Entry κ α} {key : κ}
    (distinct : DistinctKeys (entries ++ entry :: rest)) (found : (entry.key == key) = true) :
    (entries ++ entry :: rest).filter (!·.key == key) = entries ++ rest := by
  have absent := (distinct_keys_around distinct).2
  have keep : ∀ other ∈ entries ++ rest, (!other.key == key) = true := by
    intro other member
    rw [← beq_key_congr found, absent other member]
    rfl
  rw [List.filter_append, List.filter_cons_of_neg (by simp [found]), ← List.filter_append]
  exact List.filter_eq_self.mpr keep

omit [EquivBEq κ] in
theorem others_of_absent {entries : List (Entry κ α)} {key : κ}
    (absent : entries.find? (·.key == key) = none) : entries.filter (!·.key == key) = entries := by
  rw [List.filter_eq_self]
  intro entry member
  simpa using List.find?_eq_none.mp absent entry member

omit [EquivBEq κ] in
theorem others_absent (entries : List (Entry κ α)) (key : κ) :
    ∀ other ∈ entries.filter (!·.key == key), (other.key == key) = false := by
  intro other member
  simpa using (List.mem_filter.mp member).2

/-- Taking out the entry under a key parts the list in two. -/
theorem perm_find_others {entries : List (Entry κ α)} (distinct : DistinctKeys entries) (key : κ) :
    entries.Perm ((entries.find? (·.key == key)).toList ++ entries.filter (!·.key == key)) := by
  cases found : entries.find? (·.key == key) with
  | none =>
      rw [others_of_absent found]
      exact List.Perm.refl _
  | some entry =>
      obtain ⟨equal, fresher, colder, rfl, _⟩ := List.find?_eq_some_iff_append.mp found
      rw [others_around distinct equal]
      exact List.perm_middle

/-! ## Inserting -/

omit [EquivBEq κ] in
theorem insert_of_too_costly {store : RecencyList κ α} {entry : Entry κ α}
    (tooCostly : store.limit ≤ entry.cost) : store.insert entry = (.refused entry, store) := by
  rw [insert, if_pos tooCostly]

omit [EquivBEq κ] in
theorem insert_of_affordable {store : RecencyList κ α} {entry : Entry κ α}
    (affordable : ¬ store.limit ≤ entry.cost) :
    store.insert entry =
      (.admitted (store.find? entry.key)
        (split (store.limit.toNat - entry.cost.toNat) (store.others entry.key)).2,
      { store with
        entries := entry :: (split (store.limit.toNat - entry.cost.toNat) (store.others entry.key)).1 }) := by
  rw [insert, if_neg affordable]

end RecencyList

end MemoryBudget
