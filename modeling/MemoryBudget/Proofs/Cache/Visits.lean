import MemoryBudget.Proofs.Cache.Linearisation
import MemoryBudget.Proofs.Dialogue.Attendance

/-!
# Attended calls of caches

What each call comes to with a client that never calls back: its reply, the store that it leaves, and what the client is
asked and told meanwhile.
-/

set_option autoImplicit false

namespace MemoryBudget

namespace Cache

open Service

variable {κ α φ : Type} [BEq κ] [Hashable κ] [BEq α]
  (answer : (query : (protocol κ α).Query) → φ → (protocol κ α).Answer query × φ)

def priceAt (memory : φ) (value : α) : UInt64 := (answer (.price value) memory).1

section Known

variable (store : Lru κ α) (memory : φ) (key : κ)

theorem visit_get :
    service.visit answer (.get key) store memory = ⟨(store.get key).1, (store.get key).2, memory, []⟩ :=
  service_implements.visit_of_known answer (.get key) rfl rfl memory

theorem visit_peek : service.visit answer (.peek key) store memory = ⟨store.peek? key, store, memory, []⟩ :=
  service_implements.visit_of_known answer (.peek key) rfl rfl memory

theorem visit_contains : service.visit answer (.contains key) store memory = ⟨store.contains key, store, memory, []⟩ :=
  service_implements.visit_of_known answer (.contains key) rfl rfl memory

theorem visit_remove :
    service.visit answer (.remove key) store memory =
      ⟨(store.remove key).1.map (·.value), (store.remove key).2, memory, []⟩ :=
  service_implements.visit_of_known answer (.remove key) rfl rfl memory

end Known

/-- A put asks for the price, and then tells of the departures of the exchange. -/
theorem visit_put {store : Lru κ α} {memory : φ} {key : κ} {value : α} {departures : List (Departure κ α)}
    {previous : Option α} {final : Lru κ α}
    (exchanged : store.exchange ⟨key, value, priceAt answer memory value⟩ = ((departures, previous), final)) :
    service.visit answer (.put key value) store memory =
      ⟨previous, final, remembered answer (answer (.price value) memory).2 (departures.map .departed),
        .price value :: departures.map .departed⟩ := by
  have put : putting key value (answer (.price value) memory).1 store = (departing departures previous, final) :=
    congrArg (fun exchanged => (departing exchanged.1.1 exchanged.1.2, exchanged.2)) exchanged
  have visited := service_implements.visit_of_asked answer (.put key value)
    (show engine.transaction (.put key value) = .asked (.price value) (putting key value) from rfl)
    (congrArg (·.1.reply) put)
  rw [visited, put]
  rfl

end Cache

end MemoryBudget
