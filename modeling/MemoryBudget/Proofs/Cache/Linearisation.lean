import MemoryBudget.Cache.Engine
import MemoryBudget.Cache.Clients
import MemoryBudget.Proofs.Cache.Soundness
import MemoryBudget.Proofs.Dialogue.Linearisation

/-!
# Caches are executed call by call

The service of a cache implements its engine. Its transactions settle every reply.
-/

set_option autoImplicit false

namespace MemoryBudget

namespace Cache

variable {κ α ρ : Type} [BEq κ] [Hashable κ] [BEq α]

open Service

theorem owes_tell (request : Call κ α) (departures : List (Departure κ α)) (reply : (protocol κ α).Reply request) :
    (service (κ := κ) (α := α)).Owes (tell reply departures) (departing departures reply) := by
  induction departures with
  | nil => exact .replied reply
  | cons departure rest ih => exact .reporting (Work.telling departure rest reply) (fun _ _ => rfl) ih

theorem service_implements : (service (κ := κ) (α := α)).Implements engine := by
  intro request store
  cases request with
  | put key value =>
      exact @Begins.asking _ _ service (.put key value) store (Work.pricing key value) (putting key value)
        fun cost store' => ⟨_, rfl, owes_tell (.put key value) (store'.exchange ⟨key, value, cost⟩).1.1 _⟩
  | trimTo target => exact begins_of_known (owes_tell (.trimTo target) (evictions (store.trimTo target).1) ()) rfl
  | clear => exact begins_of_known (owes_tell .clear (evictions store.clear.1) ()) rfl
  | trim pressure => exact begins_of_known (owes_tell (.trim pressure) (evictions (store.trim pressure).1) ()) rfl
  | rescale multiplier =>
      have rescaled : service.Owes (start (.rescale multiplier) store).1 (rescaling multiplier store).1 ∧
          (start (.rescale multiplier) store).2 = (rescaling multiplier store).2 := by
        rw [start, rescaling]
        cases store.rescale multiplier with
        | ok outcome => exact ⟨owes_tell (.rescale multiplier) (evictions outcome.1) (.ok ()), rfl⟩
        | error invalid => exact ⟨owes_tell (.rescale multiplier) [] (.error invalid), rfl⟩
      exact begins_of_known rescaled.1 rescaled.2
  | get key => exact begins_of_known (owes_tell (.get key) [] (store.get key).1) rfl
  | remove key => exact begins_of_known (owes_tell (.remove key) [] ((store.remove key).1.map (·.value))) rfl
  | peek key => exact begins_of_known (owes_tell (.peek key) [] (store.peek? key)) rfl
  | contains key => exact begins_of_known (owes_tell (.contains key) [] (store.contains key)) rfl
  | usage => exact begins_of_known (owes_tell .usage [] store.usage) rfl

/-- Whatever the client does when it is told, the reply is the one that the transaction has settled. -/
theorem transaction_settles {request : Call κ α}
    {transaction : Transaction (protocol κ α) (Lru κ α) ((protocol κ α).Reply request)}
    (own : (engine.transaction request).MayBe transaction) (store : Lru κ α) :
    ∃ reply, (transaction store).1.reply = .known reply := by
  cases request with
  | put key value =>
      obtain ⟨cost, rfl⟩ := own
      exact ⟨_, rfl⟩
  | rescale multiplier =>
      cases own
      rw [rescaling]
      cases store.rescale multiplier with
      | ok outcome => exact ⟨_, rfl⟩
      | error invalid => exact ⟨_, rfl⟩
  | _ =>
      cases own
      exact ⟨_, rfl⟩

/-- What a put reports: the value alone if it is refused; else the different value that it displaces, if any, under the
key that was given, and then the coldest of the other entries, from the coldest on. -/
def PutReports (key : κ) (value : α) (cost : UInt64) (store : Lru κ α) : Prop :=
  let put := putting key value cost store
  (store.limit ≤ cost ∧ put.1.reports = [.departed ⟨⟨key, value, cost⟩, .refused⟩] ∧ put.2 = store) ∨
    ∃ evicted kept, put.2.entries = ⟨key, value, cost⟩ :: kept ∧
      store.entries.filter (!·.key == key) = kept ++ evicted.reverse ∧
      put.1.reports =
        (Lru.displacement (store.entries.find? (·.key == key)) key value ++ evictions evicted).map .departed

theorem put_reports [EquivBEq κ] [LawfulHashable κ] {store : Lru κ α} (intact : Lru.Intact store) (key : κ) (value : α)
    (cost : UInt64) : PutReports key value cost store := by
  rcases intact.exchange_cases ⟨key, value, cost⟩ with ⟨tooCostly, exchanged⟩ |
    ⟨_, evicted, store', _, exchanged, kept, entries, parted⟩
  · rw [PutReports, putting, exchanged]
    exact Or.inl ⟨tooCostly, rfl, rfl⟩
  · rw [PutReports, putting, exchanged]
    exact Or.inr ⟨evicted, kept, entries, parted, rfl⟩

end Cache

end MemoryBudget
