import MemoryBudget.Proofs.Cache.Visits
import MemoryBudget.Proofs.Dialogue.Trimming

/-!
# Trimming caches

A cache trims as its store does, and tells its client of each entry that leaves. For a client that never calls back the
laws of trimming therefore hold of what it is told and of the cache that is left. A value that is admitted could as well
be put after what is under its key has been removed and room has been made: it then goes in without a departure.
-/

set_option autoImplicit false

namespace MemoryBudget

namespace Cache

open RecencyList Lru Service

variable {κ α φ : Type}

def evictionOf (entry : Entry κ α) : Query κ α := .departed ⟨entry, .evicted⟩

def costOf : Query κ α → UInt64
  | .price _ => 0
  | .departed departure => departure.entry.cost

theorem told_evictions (displaced : List (Departure κ α)) (evicted : List (Entry κ α)) :
    (displaced ++ evictions evicted).map Query.departed = displaced.map .departed ++ evicted.map evictionOf := by
  rw [List.map_append, evictions, List.map_map]
  rfl

theorem departing_evictions {ρ : Type} (evicted : List (Entry κ α)) (reply : ρ) :
    departing (evictions evicted) reply = { reports := evicted.map evictionOf, reply := .known reply } :=
  congrArg (Aftermath.mk · (.known reply)) (told_evictions [] evicted)

variable [BEq κ] [Hashable κ]

def trimming (κ α : Type) [BEq κ] [Hashable κ] : Trimming (protocol κ α) (Lru κ α) where
  trimTo := .trimTo
  clear := .clear
  items store := store.entries.map evictionOf
  cost := costOf
  used := Lru.used

variable [BEq α]

theorem trimming_rests :
    (trimming κ α).Rests engine (Lru.trimmer κ α) id evictionOf fun _ _ later => later where
  items _ := rfl
  used _ := rfl
  trims target := ⟨(), congrArg Wanted.known (funext fun store =>
    congrArg (·, (store.trimTo target).2) (departing_evictions (store.trimTo target).1 ()))⟩
  clears := ⟨(), congrArg Wanted.known (funext fun store =>
    congrArg (·, store.clear.2) (departing_evictions store.clear.1 ()))⟩
  view_follow _ _ _ := rfl
  follow_follow _ _ _ _ _ := rfl

variable (answer : (query : (protocol κ α).Query) → φ → (protocol κ α).Answer query × φ)

theorem visit_trim (store : Lru κ α) (memory : φ) (target : UInt64) :
    service.visit answer (.trimTo target) store memory =
      let told := (store.trimTo target).1.map evictionOf
      ⟨(), (store.trimTo target).2, remembered answer memory told, told⟩ := by
  obtain ⟨_, known⟩ := (trimming_rests (κ := κ) (α := α)).trims target
  exact service_implements.visit_of_known answer (.trimTo target) known rfl memory

/-- A value that is admitted has the reply and the departures of a removal and a trim, besides the one that tells of
what it displaces. Once these are done, it goes in without a departure if its price has not changed. -/
structure PutsInStages (store : Lru κ α) (memory : φ) (key : κ) (value : α) : Prop where
  reply :
    (service.visit answer (.put key value) store memory).reply =
      (service.visit answer (.remove key) store memory).reply
  told :
    let cost := priceAt answer memory value
    let removed := service.visit answer (.remove key) store memory
    let trimmed := service.visit answer (.trimTo (store.limit - cost)) removed.state removed.memory
    (service.visit answer (.put key value) store memory).asked =
      .price value :: ((displacement (store.meaning.find? key) key value).map .departed ++ trimmed.asked)
  placed :
    let cost := priceAt answer memory value
    let removed := service.visit answer (.remove key) store memory
    let trimmed := service.visit answer (.trimTo (store.limit - cost)) removed.state removed.memory
    let put := service.visit answer (.put key value) trimmed.state trimmed.memory
    priceAt answer trimmed.memory value = cost →
      put.reply = none ∧ put.asked = [.price value] ∧
        put.state = (service.visit answer (.put key value) store memory).state

variable [EquivBEq κ] [LawfulHashable κ] {store : Lru κ α}

theorem trims_lawfully (intact : Intact store) (memory : φ) :
    (service.trimmer (trimming κ α) answer).Lawful (store, memory) :=
  (service_implements.trimmer_overlays trimming_rests answer).lawful intact.trims_lawfully fun _ _ => rfl

theorem puts_in_stages (intact : Intact store) (memory : φ) (key : κ) (value : α)
    (affordable : priceAt answer memory value < store.limit) : PutsInStages answer store memory key value := by
  generalize priced : priceAt answer memory value = cost at affordable
  have notRefused : ¬ store.limit ≤ (⟨key, value, cost⟩ : Entry κ α).cost := UInt64.not_le.mpr affordable
  have found : (store.remove key).1 = store.meaning.find? key := (intact.remove_agrees key).outcome
  obtain ⟨absent, whole, last⟩ := intact.insert_after_stages notRefused
  rw [found] at whole
  have put := visit_put answer (by rw [priced, intact.exchange_of_admitted whole])
  constructor
  · rw [put, visit_remove, found]
  · simp only [put, visit_remove, visit_trim, priced]
    exact congrArg (Query.price value :: ·) (told_evictions _ _)
  · simp only [put, visit_remove, visit_trim, priced]
    intro priced'
    have emptied := ((intact.remove_agrees key).intact.trim_agrees (store.limit - cost)).intact
    have again := emptied.exchange_of_admitted (last.trans (by rw [absent]))
    rw [absent] at again
    rw [visit_put answer (by rw [priced', again])]
    exact ⟨rfl, rfl, rfl⟩

end Cache

end MemoryBudget
