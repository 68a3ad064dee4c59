import MemoryBudget.Proofs.Lru.UnitCosts
import Mathlib

/-!
# A larger store loses no hit

Two stores whose entries cost one each see the same accesses. The one may find a key that the other has to load, and
evict where the other need not; yet after every access the keys of the smaller store, freshest first, are the first ones
of the larger store. An access acts on the keys in the same way whether it finds its key or not, which carries this from
one access to the next.
-/

set_option autoImplicit false

namespace MemoryBudget

namespace Lru

open RecencyList

/-- What is done to a store that stands in front of something slower. -/
inductive Access (κ α : Type) where
  /-- Gets the value of a key, or else puts the one that is loaded. -/
  | read (key : κ) (loaded : α)
  | put (key : κ) (value : α)
  | remove (key : κ)

/-- What is seen of an access: whether its key was found, and which keys there are after it, freshest first. -/
structure Glimpse (κ : Type) where
  found : Bool
  keys : List κ

structure Glimpse.Within {κ : Type} [BEq κ] (small large : Glimpse κ) : Prop where
  keys : small.keys.isPrefixOf large.keys = true
  found : small.found = true → large.found = true

section Keys

variable {κ : Type} [BEq κ]

theorem any_of_leading [EquivBEq κ] {few many : List κ} (leads : few.isPrefixOf many = true) {key : κ}
    (found : few.any (· == key) = true) : many.any (· == key) = true := by
  induction few generalizing many with
  | nil => cases found
  | cons one few ih =>
      cases many with
      | nil => cases leads
      | cons other many =>
          rw [List.isPrefixOf, Bool.and_eq_true] at leads
          rw [List.any_cons, Bool.or_eq_true] at found ⊢
          exact found.imp (fun same => BEq.trans (BEq.symm leads.1) same) (ih leads.2)

theorem filter_leads [EquivBEq κ] {few many : List κ} (leads : few.isPrefixOf many = true) (key : κ) :
    (few.filter (!· == key)).isPrefixOf (many.filter (!· == key)) = true := by
  induction few generalizing many with
  | nil => rfl
  | cons one few ih =>
      cases many with
      | nil => cases leads
      | cons other many =>
          rw [List.isPrefixOf, Bool.and_eq_true] at leads
          have alike : (one == key) = (other == key) := by
            rw [BEq.comm, beq_key_congr leads.1, BEq.comm]
          rw [List.filter_cons, List.filter_cons, alike]
          split
          · rw [List.isPrefixOf, leads.1]
            exact ih leads.2
          · exact ih leads.2

theorem take_leads {few many : List κ} (leads : few.isPrefixOf many = true) {some more : Nat} (fewer : some ≤ more) :
    (few.take some).isPrefixOf (many.take more) = true := by
  induction few generalizing many some more with
  | nil =>
      rw [List.take_nil]
      rfl
  | cons one few ih =>
      cases many with
      | nil => cases leads
      | cons other many =>
          rw [List.isPrefixOf, Bool.and_eq_true] at leads
          cases some with
          | zero => rfl
          | succ some =>
              obtain ⟨more, rfl⟩ : ∃ less, more = less + 1 := ⟨more - 1, by omega⟩
              rw [List.take_succ_cons, List.take_succ_cons, List.isPrefixOf, leads.1]
              exact ih leads.2 (Nat.le_of_succ_le_succ fewer)

end Keys

variable {κ α : Type} [BEq κ] [Hashable κ]

def keys (store : Lru κ α) : List κ := store.entries.map (·.key)

/-- Whether the key of an access is found, and the store after it. Whatever is put costs one. -/
def access (store : Lru κ α) : Access κ α → Bool × Lru κ α
  | .read key loaded =>
      match store.get key with
      | (some _, store) => (true, store)
      | (none, store) => (false, (store.insert (unit key loaded)).2)
  | .put key value => (store.contains key, (store.insert (unit key value)).2)
  | .remove key =>
      let (removed, store) := store.remove key
      (removed.isSome, store)

def glimpses (store : Lru κ α) : List (Access κ α) → List (Glimpse κ)
  | [] => []
  | access :: rest =>
      let (found, store) := store.access access
      { found := found, keys := store.keys } :: glimpses store rest

theorem found_iff (store : Lru κ α) (key : κ) :
    (store.meaning.find? key).isSome = store.keys.any (· == key) := by
  rw [RecencyList.find?, keys, List.any_map, Bool.eq_iff_iff, List.find?_isSome, List.any_eq_true]
  rfl

theorem keys_of_others (store : Lru κ α) (key : κ) :
    (store.meaning.others key).map (·.key) = store.keys.filter (!· == key) := by
  rw [keys, List.filter_map]
  rfl

variable {limit : UInt64} {store : Lru κ α} [EquivBEq κ] [LawfulHashable κ]

/-- An access has found its key, or has not, and this key is now in front of those of the others that there is room
for. -/
structure Fronts (store : Lru κ α) (limit : UInt64) (key : κ) (accessed : Bool × Lru κ α) : Prop where
  found : accessed.1 = store.keys.any (· == key)
  keys : ∃ front, (front == key) = true ∧
    accessed.2.keys = front :: (store.keys.filter (!· == key)).take (limit.toNat - 1)
  units : UnitPriced limit accessed.2

theorem UnitPriced.put_fronts (units : UnitPriced limit store) (roomy : 2 ≤ limit) (key : κ) (value : α) :
    Fronts store limit key (store.access (.put key value)) := by
  obtain ⟨_, entries, units'⟩ := units.insert roomy key value
  refine ⟨?_, ⟨key, BEq.rfl, ?_⟩, units'⟩
  · rw [access, units.intact.contains_eq, found_iff]
  · rw [access, Lru.keys, entries, List.map_cons, List.map_take, keys_of_others]
    rfl

omit [LawfulHashable κ] in
/-- Beside an entry that is found there is room for all the others. -/
theorem UnitPriced.others_fit (units : UnitPriced limit store) {key : κ} {entry : Entry κ α}
    (found : store.meaning.find? key = some entry) :
    (store.meaning.others key).take (limit.toNat - 1) = store.meaning.others key := by
  have parted := (perm_find_others units.intact.distinct_keys key).length_eq
  have atMost := units.length_le
  rw [show store.entries.find? (·.key == key) = some entry from found, List.length_append] at parted
  apply List.take_of_length_le
  show (store.entries.filter (!·.key == key)).length ≤ _
  simp only [Option.toList_some, List.length_singleton] at parted
  omega

theorem UnitPriced.read_fronts (units : UnitPriced limit store) (roomy : 2 ≤ limit) (key : κ) (loaded : α) :
    Fronts store limit key (store.access (.read key loaded)) := by
  obtain ⟨outcome, entries, units'⟩ := units.get key
  rw [access]
  cases got : store.get key with
  | mk value after =>
      rw [got] at outcome entries units'
      cases found : store.meaning.find? key with
      | none =>
          rw [found] at outcome entries
          cases outcome
          -- A miss leaves the keys alone, so what is loaded goes in front of the same others.
          have sameKeys : after.keys = store.keys := by
            rw [keys, keys]
            exact congrArg (List.map (·.key)) entries
          have fronts := units'.put_fronts roomy key loaded
          refine ⟨?_, ?_, fronts.units⟩
          · rw [← found_iff, found]
            rfl
          · rw [← sameKeys]
            exact fronts.keys
      | some entry =>
          rw [found] at outcome entries
          cases outcome
          refine ⟨?_, ⟨entry.key, by simpa using List.find?_some found, ?_⟩, units'⟩
          · rw [← found_iff, found]
            rfl
          · show after.entries.map (·.key) = _
            rw [entries, List.map_cons, ← keys_of_others, ← List.map_take, units.others_fit found]

omit [LawfulHashable κ] in
/-- Fronting one key in both stores keeps the keys of the smaller one in front of those of the larger one. -/
theorem Fronts.within {small large : UInt64} {few many : Lru κ α} {key : κ} {accessed accessed' : Bool × Lru κ α}
    (fronts : Fronts few small key accessed) (fronts' : Fronts many large key accessed') (larger : small ≤ large)
    (leads : few.keys.isPrefixOf many.keys = true) :
    Glimpse.Within ⟨accessed.1, accessed.2.keys⟩ ⟨accessed'.1, accessed'.2.keys⟩ := by
  obtain ⟨found, ⟨front, same, keys⟩, _⟩ := fronts
  obtain ⟨found', ⟨front', same', keys'⟩, _⟩ := fronts'
  constructor
  · have fewer : small.toNat - 1 ≤ large.toNat - 1 := Nat.sub_le_sub_right (UInt64.le_iff_toNat_le.mp larger) 1
    rw [keys, keys', List.isPrefixOf, BEq.trans same (BEq.symm same')]
    exact take_leads (filter_leads leads key) fewer
  · rw [found, found']
    exact any_of_leading leads

/-- One access, in a store and in one that is no smaller. -/
theorem UnitPriced.access_within {small large : UInt64} {few many : Lru κ α} (units : UnitPriced small few)
    (units' : UnitPriced large many) (roomy : 2 ≤ small) (larger : small ≤ large)
    (leads : few.keys.isPrefixOf many.keys = true) (access : Access κ α) :
    UnitPriced small (few.access access).2 ∧ UnitPriced large (many.access access).2 ∧
      Glimpse.Within ⟨(few.access access).1, (few.access access).2.keys⟩
        ⟨(many.access access).1, (many.access access).2.keys⟩ := by
  have roomy' : 2 ≤ large := UInt64.le_trans roomy larger
  cases access with
  | read key loaded =>
      have fronts := units.read_fronts roomy key loaded
      have fronts' := units'.read_fronts roomy' key loaded
      exact ⟨fronts.units, fronts'.units, fronts.within fronts' larger leads⟩
  | put key value =>
      have fronts := units.put_fronts roomy key value
      have fronts' := units'.put_fronts roomy' key value
      exact ⟨fronts.units, fronts'.units, fronts.within fronts' larger leads⟩
  | remove key =>
      obtain ⟨removed, entries, after⟩ := units.remove key
      obtain ⟨removed', entries', after'⟩ := units'.remove key
      refine ⟨after, after', ?_, ?_⟩
      · show (few.remove key).2.keys.isPrefixOf (many.remove key).2.keys = true
        rw [keys, keys, entries, entries', keys_of_others, keys_of_others]
        exact filter_leads leads key
      · show (few.remove key).1.isSome = true → (many.remove key).1.isSome = true
        rw [removed, removed', found_iff, found_iff]
        exact any_of_leading leads

theorem UnitPriced.glimpses_within {small large : UInt64} (roomy : 2 ≤ small) (larger : small ≤ large)
    (accesses : List (Access κ α)) {few many : Lru κ α} (units : UnitPriced small few) (units' : UnitPriced large many)
    (leads : few.keys.isPrefixOf many.keys = true) :
    List.Forall₂ Glimpse.Within (few.glimpses accesses) (many.glimpses accesses) := by
  induction accesses generalizing few many with
  | nil => exact .nil
  | cons access rest ih =>
      obtain ⟨after, after', within⟩ := units.access_within units' roomy larger leads access
      exact .cons within (ih after after' within.keys)

/-- Of two empty stores that see the same accesses, with all costs one, the larger one finds every key that the smaller
one finds, and after every access it has the keys of the smaller one in front. -/
theorem larger_store_loses_no_hit {small large : UInt64} (roomy : 2 ≤ small) (larger : small ≤ large)
    (accesses : List (Access κ α)) :
    List.Forall₂ Glimpse.Within ((ofLimit small : Lru κ α).glimpses accesses)
      ((ofLimit large : Lru κ α).glimpses accesses) :=
  UnitPriced.glimpses_within roomy larger accesses (of_limit_unit_priced small) (of_limit_unit_priced large) rfl

/-- The third read costs the store for two its oldest key, which it has to load again, and which the store for three
finds. After the removal the smaller one has a key less than it might have, and still all of its keys in common. -/
theorem key_is_loaded_again_within_two :
    let accesses : List (Access Nat Nat) := [.read 1 10, .read 2 20, .read 3 30, .read 1 11, .remove 3, .put 4 40]
    (ofLimit 2 : Lru Nat Nat).glimpses accesses =
        [⟨false, [1]⟩, ⟨false, [2, 1]⟩, ⟨false, [3, 2]⟩, ⟨false, [1, 3]⟩, ⟨true, [1]⟩, ⟨false, [4, 1]⟩] ∧
      List.Forall₂ Glimpse.Within
        [⟨false, [1]⟩, ⟨false, [2, 1]⟩, ⟨false, [3, 2]⟩, ⟨false, [1, 3]⟩, ⟨true, [1]⟩, ⟨false, [4, 1]⟩]
        [⟨false, [1]⟩, ⟨false, [2, 1]⟩, ⟨false, [3, 2, 1]⟩, ⟨true, [1, 3, 2]⟩, ⟨true, [1, 2]⟩, ⟨false, [4, 1, 2]⟩] := by
  intro accesses
  have few : (ofLimit 2 : Lru Nat Nat).glimpses accesses =
      [⟨false, [1]⟩, ⟨false, [2, 1]⟩, ⟨false, [3, 2]⟩, ⟨false, [1, 3]⟩, ⟨true, [1]⟩, ⟨false, [4, 1]⟩] := by cbv
  have many : (ofLimit 3 : Lru Nat Nat).glimpses accesses =
      [⟨false, [1]⟩, ⟨false, [2, 1]⟩, ⟨false, [3, 2, 1]⟩, ⟨true, [1, 3, 2]⟩, ⟨true, [1, 2]⟩, ⟨false, [4, 1, 2]⟩] := by cbv
  have within := larger_store_loses_no_hit (show (2 : UInt64) ≤ 2 by decide) (show (2 : UInt64) ≤ 3 by decide) accesses
  rw [few, many] at within
  exact ⟨few, within⟩

end Lru

end MemoryBudget
