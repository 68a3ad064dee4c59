import MemoryBudget.Block
import MemoryBudget.Proofs.Cache.Putting
import MemoryBudget.Proofs.Cache.Thrift
import MemoryBudget.Proofs.Dialogue.Termination
import MemoryBudget.Proofs.Pool.Thrift

/-!
# Shrinking

A client that puts less back than it is told about keeps neither a cache nor a pool busy for ever, although each put may
evict other entries, about which it is told as well, while earlier departures are still to be told.
-/

set_option autoImplicit false

namespace MemoryBudget

open Cache (Diary Priced)
open Pool (Practice Workshop)

variable {κ α β σ : Type} [BEq κ] [Hashable κ] [EquivBEq κ] [LawfulHashable κ] [BEq α] [DecidableEq σ] [Hashable σ]
  [Ord σ] [Std.TransOrd σ] [Std.LawfulEqOrd σ] [Recyclable β σ]

/-- Whatever was done to a cache or to a pool before, every script comes to its end if what is put from inside a report
is less than what the report is about: in a cache the costs that are answered, in a pool the sizes, also of objects that
the pool refuses. Such a client is one that puts evicted values back at a lower price, and one that puts smaller pieces
of discarded objects back. -/
theorem shrinking_dialogues_end (settings : Pool.Settings) :
    (∀ (φ ρ : Type) limit store client (script : Script (Cache.protocol κ α) φ ρ) memory,
      (Cache.service (κ := κ) (α := α)).Reaches (Lru.ofLimit limit) store →
      (∀ said moment, (Moment.opening script memory store : Moment Cache.service φ ρ).Leads client said moment →
        (Cache.tariff κ α).Thrifty said) →
      Cache.service.Ends client script memory store) ∧
    (∀ (φ ρ : Type) stock client (script : Script (Pool.protocol β σ) φ ρ) memory,
      (Pool.service settings).Reaches (Pool.Stock.ofLimit settings.limit) stock →
      (∀ said moment, (Moment.opening script memory stock : Moment (Pool.service settings) φ ρ).Leads client said moment →
        (Pool.tariff β σ).Thrifty said) →
      (Pool.service settings).Ends client script memory stock) ∧
    (∀ price (cheaper? : α → Option α), (∀ value cheaper, cheaper? value = some cheaper → price cheaper < price value) →
      ∀ (ρ : Type) limit (script : Script (Cache.protocol κ α) (Diary κ α) ρ) diary,
        Cache.service.Ends (Cache.demoter price cheaper?) script diary (Lru.ofLimit limit)) ∧
    (∀ practice : Practice β σ, (∀ item remade, practice.remake item = some remade →
        Recyclable.byteSize remade < Recyclable.byteSize item) →
      ∀ (ρ : Type) stock (script : Script (Pool.protocol β σ) (Workshop β σ) ρ) workshop,
        (Pool.service settings).Reaches (Pool.Stock.ofLimit settings.limit) stock →
        (Pool.service settings).Ends practice.client script workshop stock) := by
  refine ⟨?_, ?_, ?_, ?_⟩
  · intro φ ρ limit store client script memory reached thrifty
    exact Cache.scale.ends (Lru.Intact.of_reached reached) thrifty
  · intro φ ρ stock client script memory reached thrifty
    exact (Pool.scale settings).ends (Pool.Stock.Coherent.of_reached reached) thrifty
  · intro price cheaper? cheapens ρ limit script diary
    exact Cache.scale.ends (Lru.of_limit_intact limit) (Cache.demoter_thrifty cheapens limit script diary)
  · intro practice shrinks ρ stock script workshop reached
    exact (Pool.scale settings).ends (Pool.Stock.Coherent.of_reached reached)
      (Pool.workshop_thrifty shrinks settings script workshop stock)

theorem Cache.Priced.cheaper_lt {value cheaper : Priced} (cheapens : value.cheaper? = some cheaper) :
    cheaper.price < value.price := by
  rw [Priced.cheaper?] at cheapens
  split_ifs at cheapens with dear
  cases cheapens
  show value.price / 2 < value.price
  rw [UInt64.lt_iff_toNat_lt] at dear ⊢
  rw [UInt64.toNat_div]
  exact Nat.div_lt_self (Nat.zero_lt_of_lt dear) Nat.one_lt_two

theorem Block.first_half_lt {fit : BlockFit} {block remade : Block fit} (halved : block.firstHalf? = some remade) :
    remade.bytes < block.bytes := by
  rw [Block.firstHalf?] at halved
  split_ifs at halved with left
  cases halved
  show block.bytes / 2 < block.bytes
  rw [UInt64.lt_iff_toNat_lt, UInt64.toNat_div] at left
  rw [UInt64.lt_iff_toNat_lt, UInt64.toNat_div]
  exact Nat.div_lt_self (Nat.pos_of_div_pos left) Nat.one_lt_two

/-- Halves of values and of blocks are put back until nothing is left of them. The block of ninety is larger than the
pool takes, and so it is handed back when it is put. -/
theorem halves_are_put_back_until_nothing_is_left :
    let settings : Pool.Settings :=
      { limit := 100, largestItem := some 60, matching := .exact, clearsAt := Pressure.background }
    let halving : Client (Cache.protocol Nat Priced) (Diary Nat Priced) := Cache.demoter Priced.price Priced.cheaper?
    let puts : Script (Cache.protocol Nat Priced) (Diary Nat Priced) Unit :=
      .call (.put 1 ⟨some "one", 9⟩) fun _ => .call (.put 2 ⟨some "two", 8⟩) fun _ => .call .clear fun _ => .done ()
    let trims : Script (Cache.protocol Nat Priced) (Diary Nat Priced) Unit :=
      .call (.put 1 ⟨some "one", 9⟩) fun _ => .call (.trimTo 4) fun _ => .done ()
    let practice : Practice (Block .sameShape) UInt64 :=
      { supplier := Block.supplier, refused := [], remake := Block.firstHalf?, inReach := true }
    let gives : Script (Pool.protocol (Block .sameShape) UInt64) (Workshop (Block .sameShape) UInt64) Unit :=
      .call (.put ⟨1, 90, 0, true⟩) fun _ => .call (.put ⟨2, 60, 0, true⟩) fun _ => .call .clear fun _ => .done ()
    let rescales : Script (Pool.protocol (Block .sameShape) UInt64) (Workshop (Block .sameShape) UInt64) Unit :=
      .call (.put ⟨1, 60, 0, true⟩) fun _ => .call (.rescale Multiplier.half) fun _ => .done ()
    let workshop : Workshop (Block .sameShape) UInt64 := { deeds := #[], second := none }
    Cache.service.Ends halving puts Diary.empty (Lru.ofLimit 10) ∧
    (Pool.service settings).Ends practice.client gives workshop (Pool.Stock.ofLimit settings.limit) ∧
    Cache.service.Ends halving trims Diary.empty (Lru.ofLimit 10) ∧
    (Pool.service settings).Ends practice.client rescales workshop (Pool.Stock.ofLimit settings.limit) := by
  intro settings halving puts trims practice gives rescales workshop
  obtain ⟨caches, pools, demoting, remaking⟩ :=
    shrinking_dialogues_end (κ := Nat) (α := Priced) (β := Block .sameShape) (σ := UInt64) settings
  have cheapens : ∀ value cheaper, Priced.cheaper? value = some cheaper → cheaper.price < value.price :=
    fun _ _ => Priced.cheaper_lt
  have shrinks : ∀ block remade : Block .sameShape, practice.remake block = some remade → remade.bytes < block.bytes :=
    fun _ _ => Block.first_half_lt
  have reached : (Pool.service settings).Reaches (Pool.Stock.ofLimit settings.limit)
      (Pool.Stock.ofLimit settings.limit : Pool.Stock (Block .sameShape) UInt64) :=
    ⟨Workshop (Block .sameShape) UInt64, Unit, practice.client, .done (), workshop, 0, rfl⟩
  refine ⟨?_, ?_, demoting _ _ cheapens Unit 10 trims Diary.empty, remaking practice shrinks Unit _ rescales workshop reached⟩
  · exact caches _ _ 10 _ halving puts Diary.empty ⟨Unit, Unit, Cache.unitPriced, .done (), (), 0, rfl⟩
      (Cache.demoter_thrifty cheapens 10 puts Diary.empty)
  · exact pools _ _ _ practice.client gives workshop reached
      (Pool.workshop_thrifty shrinks settings gives workshop (Pool.Stock.ofLimit settings.limit))

end MemoryBudget
