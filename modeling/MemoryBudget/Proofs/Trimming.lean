import MemoryBudget.Proofs.Cache.Putting
import MemoryBudget.Proofs.Cache.Trimming
import MemoryBudget.Proofs.Pool.Trimming

/-!
# Trimming stores, caches and pools

The laws of trimming for every store that operations lead to, and for every cache and every pool that any client has
dealt with, as long as the client does not call back while it is told what leaves.
-/

set_option autoImplicit false

namespace MemoryBudget

open Pool (Stock)

variable {κ α β σ φ ψ : Type} [BEq κ] [Hashable κ] [EquivBEq κ] [LawfulHashable κ] [BEq α]
  [DecidableEq σ] [Hashable σ] [Ord σ] [Std.TransOrd σ] [Std.LawfulEqOrd σ] [Recyclable β σ]

/-- Two trims are the one to the smaller target: the same leave in the same order, and the same state is left. Each takes
the fewest of the coldest that it has to. Clearing is a trim to nothing with the entries that cost nothing after it, and
what is admitted is admitted without an eviction once the key is free and there is room. -/
theorem trims_compose_and_evict_the_fewest :
    (∀ (limit : UInt64) (operations : List (Lru.Operation κ α)),
      let store := ((Lru.ofLimit limit : Lru κ α).run operations).2
      (Lru.trimmer κ α).Lawful store ∧
        ∀ entry previous evicted, (store.insert entry).1 = .admitted previous evicted →
          Lru.InsertsInStages store entry previous evicted) ∧
    (∀ (limit : UInt64) (store : Lru κ α), Cache.service.Reaches (Lru.ofLimit limit) store →
      ∀ (answer : (query : (Cache.protocol κ α).Query) → φ → (Cache.protocol κ α).Answer query × φ) (memory : φ),
        (Cache.service.trimmer (Cache.trimming κ α) answer).Lawful (store, memory) ∧
          ∀ key value, Cache.priceAt answer memory value < store.limit →
            Cache.PutsInStages answer store memory key value) ∧
    ∀ (settings : Pool.Settings) (stock : Stock β σ),
      (Pool.service settings).Reaches (Stock.ofLimit settings.limit) stock →
      ∀ (answer : (query : (Pool.protocol β σ).Query) → ψ → (Pool.protocol β σ).Answer query × ψ) (memory : ψ),
        ((Pool.service settings).trimmer (Pool.trimming β σ) answer).Lawful (stock, memory) ∧
          (∀ target, Pool.CountsEvictions stock ((Pool.service settings).visit answer (.trimTo target) stock memory)) ∧
          Pool.CountsEvictions stock ((Pool.service settings).visit answer .clear stock memory) ∧
          ∀ item, settings.admits item = true → (answer (.approve item) memory).1 = true →
            Recyclable.byteSize item < stock.store.limit → Pool.PutsInStages settings answer stock memory item := by
  refine ⟨?_, ?_, ?_⟩
  · intro limit operations store
    have intact : Lru.Intact store := ((Lru.of_limit_intact limit).run_agrees operations).intact
    exact ⟨intact.trims_lawfully, fun _ _ _ admitted => intact.inserts_in_stages admitted⟩
  · intro limit store reached answer memory
    have intact : Lru.Intact store := .of_reached reached
    exact ⟨Cache.trims_lawfully answer intact memory, Cache.puts_in_stages answer intact memory⟩
  · intro settings stock reached answer memory
    have coherent : Stock.Coherent stock := .of_reached reached
    exact ⟨Pool.trims_lawfully settings answer coherent memory, Pool.trim_counts_evictions settings answer stock memory,
      Pool.clear_counts_evictions settings answer stock memory, fun item admitted approved affordable =>
        Pool.puts_in_stages settings answer coherent memory admitted approved affordable⟩

/-- Trimming to five and then to nothing leaves the entry that costs nothing, and clearing takes it too. In a cache of
three values of three within ten, one of five takes the place of the second and costs the first. In a pool of two blocks
of forty within a hundred, a third one costs the first. -/
theorem second_trim_goes_on_where_the_first_stopped :
    let operations : List (Lru.Operation Nat Nat) :=
      [.insert ⟨1, 10, 4⟩, .insert ⟨2, 20, 0⟩, .insert ⟨3, 30, 5⟩, .insert ⟨4, 40, 0⟩]
    let store := ((Lru.ofLimit 10 : Lru Nat Nat).run operations).2
    let price : (query : (Cache.protocol Nat Nat).Query) → Unit → (Cache.protocol Nat Nat).Answer query × Unit := fun
      | .price value, _ => (UInt64.ofNat value, ())
      | .departed _, _ => ((), ())
    let pricing : Client (Cache.protocol Nat Nat) Unit := fun query => .done (price query ()).1
    let puts : Script (Cache.protocol Nat Nat) Unit (Option Nat) :=
      .call (.put 1 3) fun _ => .call (.put 2 3) fun _ => .call (.put 3 3) .done
    let putting := (Moment.opening puts () (Lru.ofLimit 10) : Moment Cache.service _ _).advance pricing 6
    let settings : Pool.Settings :=
      { limit := 100, largestItem := none, matching := .exact, clearsAt := Pressure.background }
    let supply : (query : (Pool.protocol (Block .sameShape) UInt64).Query) → Unit →
        (Pool.protocol (Block .sameShape) UInt64).Answer query × Unit := fun
      | .make requested, _ => (Block.fresh requested, ())
      | .approve _, _ => (true, ())
      | .discard _, _ => ((), ())
    let supplying : Client (Pool.protocol (Block .sameShape) UInt64) Unit := fun query => .done (supply query ()).1
    let gives : Script (Pool.protocol (Block .sameShape) UInt64) Unit Unit :=
      .call (.put (Block.fresh 40)) fun _ => .call (.put (Block.fresh 41)) .done
    let giving := (Moment.opening gives () (Stock.ofLimit settings.limit) : Moment (Pool.service settings) _ _).advance
      supplying 4
    store.trimTo 0 = ((store.trimTo 5).1 ++ ((store.trimTo 5).2.trimTo 0).1, ((store.trimTo 5).2.trimTo 0).2) ∧
      store.clear.1 = [⟨1, 10, 4⟩, ⟨2, 20, 0⟩, ⟨3, 30, 5⟩] ++ [⟨4, 40, 0⟩] ∧
      (Cache.service.visit price (.put 2 5) putting.2.state ()).asked =
        [.price 5, .departed ⟨⟨2, 3, 3⟩, .displaced⟩, .departed ⟨⟨1, 3, 3⟩, .evicted⟩] ∧
      ((Pool.service settings).visit supply (.put (Block.fresh 42)) giving.2.state ()).asked =
        [.approve (Block.fresh 42), .discard (Block.fresh 40)] := by
  intro operations store price pricing puts putting settings supply supplying gives giving
  obtain ⟨stores, caches, pools⟩ := trims_compose_and_evict_the_fewest (κ := Nat) (α := Nat) (β := Block .sameShape)
    (σ := UInt64) (φ := Unit) (ψ := Unit)
  refine ⟨(stores 10 operations).1.composes 5 0, ?_, ?_, ?_⟩
  · have lawful := (stores 10 operations).1
    have evicted : (((Lru.ofLimit 10 : Lru Nat Nat).run operations).2.trimTo 0).1 =
      [⟨1, 10, 4⟩, ⟨2, 20, 0⟩, ⟨3, 30, 5⟩] := by cbv
    have kept : (((Lru.ofLimit 10 : Lru Nat Nat).run operations).2.trimTo 0).2.entries = [⟨4, 40, 0⟩] := by cbv
    exact (congrArg Prod.fst lawful.clears).trans
      (congrArg₂ (· ++ ·) evicted (lawful.rest.trans (congrArg List.reverse kept)))
  · have limit : putting.2.state.limit = 10 := by cbv
    have found : putting.2.state.meaning.find? 2 = some ⟨2, 3, 3⟩ := by cbv
    have evicted : ((putting.2.state.remove 2).2.trimTo (10 - 5)).1 = [⟨1, 3, 3⟩] := by cbv
    have reached : Cache.service.Reaches (Lru.ofLimit 10) putting.2.state := ⟨_, _, pricing, puts, (), 6, rfl⟩
    have told := ((caches 10 putting.2.state reached price ()).2 2 5 (by rw [limit]; decide)).told
    simp only [Cache.visit_remove, Cache.visit_trim, limit, found, show Cache.priceAt price () 5 = 5 from rfl,
      evicted] at told
    exact told
  · have limit : giving.2.state.store.limit = 100 := by cbv
    have evicted : (giving.2.state.store.trimTo 58).1.map Pool.discardOf = [.discard (Block.fresh 40)] := by cbv
    have room : (100 : UInt64) - Recyclable.byteSize (Block.fresh 42 : Block .sameShape) = 58 := by decide
    have reached : (Pool.service settings).Reaches (Stock.ofLimit settings.limit) giving.2.state :=
      ⟨_, _, supplying, gives, (), 4, rfl⟩
    have told := ((pools settings giving.2.state reached supply ()).2.2.2 (Block.fresh 42) rfl rfl
      (by rw [limit]; decide)).told
    simp only [Pool.visit_trim, limit, room] at told
    exact told.trans (congrArg (Pool.Query.approve (Block.fresh 42) :: ·) evicted)

end MemoryBudget
