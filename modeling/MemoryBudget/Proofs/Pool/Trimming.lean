import MemoryBudget.Proofs.Dialogue.Trimming
import MemoryBudget.Proofs.Pool.Linearisation

/-!
# Trimming pools

A pool trims as its store does, hands back each object that leaves, and counts it. The laws of trimming hold of what is
handed back and of the stock that is left, with its buckets. An object that is kept could as well be put when room has
been made: the stock is then the same, down to the order of the buckets, and so is every later lookup.
-/

set_option autoImplicit false

namespace MemoryBudget

namespace Pool

open RecencyList Service Stock

variable {α σ φ : Type}

def discardOf (entry : Entry (Ticket σ) α) : Query α σ := .discard entry.value

section Sizes

variable [Recyclable α σ]

def sizeOf : Query α σ → UInt64
  | .discard item => Recyclable.byteSize item
  | _ => 0

end Sizes

theorem discarding_values {ρ : Type} (evicted : List (Entry (Ticket σ) α)) (reply : ρ) :
    discarding (evicted.map (·.value)) reply = { reports := evicted.map discardOf, reply := .known reply } := by
  have told : (evicted.map (·.value)).map Query.discard = evicted.map discardOf := by
    rw [List.map_map]
    rfl
  exact congrArg (Aftermath.mk · (.known reply)) told

variable [DecidableEq σ] [Hashable σ] [Ord σ] [Recyclable α σ]

def trimming (α σ : Type) [DecidableEq σ] [Hashable σ] [Recyclable α σ] : Trimming (protocol α σ) (Stock α σ) where
  trimTo := .trimTo
  clear := .clear
  items stock := stock.store.entries.map discardOf
  cost := sizeOf
  used stock := stock.store.used

omit [Recyclable α σ] in
theorem unlist_unlist (stock : Stock α σ) (left more : List (Entry (Ticket σ) α))
    (between later : Lru (Ticket σ) α) :
    ({ ({ stock with store := between }.unlist left) with store := later }.unlist more) =
      { stock with store := later }.unlist (left ++ more) := by
  simp only [unlist, List.foldl_append, List.length_append, Nat.add_assoc]

theorem trimming_rests (settings : Settings) :
    (trimming α σ).Rests (engine settings) (Lru.trimmer (Ticket σ) α) Stock.store discardOf
      fun stock left later => { stock with store := later }.unlist left where
  items _ := rfl
  used _ := rfl
  trims target := ⟨(), congrArg Wanted.known (funext fun stock =>
    congrArg (·, (stock.trimTo target).2) (discarding_values (stock.store.trimTo target).1 ()))⟩
  clears := ⟨(), congrArg Wanted.known (funext fun stock =>
    congrArg (·, stock.clear.2) (discarding_values stock.store.clear.1 ()))⟩
  view_follow _ _ _ := rfl
  follow_follow stock left between more later := unlist_unlist stock left more between later

variable (settings : Settings) (answer : (query : (protocol α σ).Query) → φ → (protocol α σ).Answer query × φ)

section Calls

variable (stock : Stock α σ) (memory : φ)

theorem visit_trim (target : UInt64) :
    (service settings).visit answer (.trimTo target) stock memory =
      let told := (stock.store.trimTo target).1.map discardOf
      ⟨(), (stock.trimTo target).2, remembered answer memory told, told⟩ := by
  obtain ⟨_, known⟩ := (trimming_rests (α := α) (σ := σ) settings).trims target
  exact (service_implements settings).visit_of_known answer (.trimTo target) known rfl memory

theorem visit_clear :
    (service settings).visit answer .clear stock memory =
      let told := stock.store.clear.1.map discardOf
      ⟨(), stock.clear.2, remembered answer memory told, told⟩ := by
  obtain ⟨_, known⟩ := (trimming_rests (α := α) (σ := σ) settings).clears
  exact (service_implements settings).visit_of_known answer .clear known rfl memory

variable {stock memory}

theorem visit_put {item : α} (admitted : settings.admits item = true)
    (approved : (answer (.approve item) memory).1 = true) {evicted : List (Entry (Ticket σ) α)} {final : Stock α σ}
    (offered : stock.offer item = (.admitted (evicted.map (·.value)), final)) :
    (service settings).visit answer (.put item) stock memory =
      ⟨(), final, remembered answer (answer (.approve item) memory).2 (evicted.map discardOf),
        .approve item :: evicted.map discardOf⟩ := by
  have asked : (engine settings).transaction (.put item) = .asked (.approve item) (Stock.accept item) := if_pos admitted
  have accepted : Stock.accept item (answer (.approve item) memory).1 stock =
      ({ reports := evicted.map discardOf, reply := .known () }, final) := by
    rw [approved, Stock.accept, if_pos rfl, offered, ← discarding_values]
  have visited := (service_implements settings).visit_of_asked answer (.put item) asked (congrArg (·.1.reply) accepted)
  rw [visited, accepted]

end Calls

/-- The objects that were handed back on a visit have been counted, and nothing else has. -/
def CountsEvictions {request : Call α σ} (stock : Stock α σ)
    (visit : Visit (protocol α σ) (Stock α σ) φ request) : Prop :=
  visit.state.tally = { stock.tally with evictions := stock.tally.evictions + visit.asked.length }

omit [Recyclable α σ] in
theorem settle_counts (stock : Stock α σ) (outcome : List (Entry (Ticket σ) α) × Lru (Ticket σ) α) :
    (stock.settle outcome).2.tally =
      { stock.tally with evictions := stock.tally.evictions + (outcome.1.map discardOf).length } := by
  rw [List.length_map]
  rfl

theorem trim_counts_evictions (stock : Stock α σ) (memory : φ) (target : UInt64) :
    CountsEvictions stock ((service settings).visit answer (.trimTo target) stock memory) := by
  simp only [CountsEvictions, visit_trim]
  exact settle_counts stock (stock.store.trimTo target)

theorem clear_counts_evictions (stock : Stock α σ) (memory : φ) :
    CountsEvictions stock ((service settings).visit answer .clear stock memory) := by
  simp only [CountsEvictions, visit_clear]
  exact settle_counts stock stock.store.clear

/-- An object that is kept makes those leave that a trim does. Once they have left, it is put without any leaving, if it
is approved again, and the same stock is left. -/
structure PutsInStages (stock : Stock α σ) (memory : φ) (item : α) : Prop where
  told :
    let trimmed := (service settings).visit answer (.trimTo (stock.store.limit - Recyclable.byteSize item)) stock memory
    ((service settings).visit answer (.put item) stock memory).asked = .approve item :: trimmed.asked
  placed :
    let trimmed := (service settings).visit answer (.trimTo (stock.store.limit - Recyclable.byteSize item)) stock memory
    let put := (service settings).visit answer (.put item) trimmed.state trimmed.memory
    (answer (.approve item) trimmed.memory).1 = true →
      put.asked = [.approve item] ∧ put.state = ((service settings).visit answer (.put item) stock memory).state

variable {stock : Stock α σ}

theorem trims_lawfully (coherent : Coherent stock) (memory : φ) :
    ((service settings).trimmer (trimming α σ) answer).Lawful (stock, memory) :=
  ((service_implements settings).trimmer_overlays (trimming_rests settings) answer).lawful
    coherent.intact.trims_lawfully fun entry resident => (coherent.faithful entry resident).cost.symm

variable [Std.TransOrd σ] [Std.LawfulEqOrd σ]

omit [Ord σ] [Recyclable α σ] [Std.TransOrd σ] [Std.LawfulEqOrd σ] in
theorem stock_eq_of_parts {one other : Stock α σ} (store : one.store = other.store)
    (buckets : one.buckets = other.buckets) (nextSerial : one.nextSerial = other.nextSerial)
    (tally : one.tally = other.tally) : one = other := by
  cases one
  cases other
  cases store
  cases buckets
  cases nextSerial
  cases tally
  rfl

/-- The buckets do not show whether an object was listed before the evicted ones were taken out, or after. -/
theorem Stock.Coherent.offer_in_stages (coherent : Coherent stock) {item : α}
    (affordable : ¬ stock.store.limit ≤ Recyclable.byteSize item) :
    let trimmed := stock.trimTo (stock.store.limit - Recyclable.byteSize item)
    ∃ final, stock.offer item = (.admitted trimmed.1, final) ∧ trimmed.2.offer item = (.admitted [], final) := by
  intro trimmed
  have absent : stock.store.meaning.find? (stock.entryFor item).key = none := by
    rw [RecencyList.find?, List.find?_eq_none]
    intro other member
    rw [coherent.offered_absent item other member]
    exact Bool.false_ne_true
  obtain ⟨_, whole, last⟩ := coherent.intact.insert_after_stages
    (show ¬ stock.store.limit ≤ (stock.entryFor item).cost from affordable)
  rw [coherent.intact.remove_of_absent absent] at whole last
  have offered := offer_of_admitted whole
  have again : trimmed.2.offer item = _ := offer_of_admitted last
  have listed := (coherent.offer_follows item).coherent.listed
  have trimmedCoherent := (coherent.trim_to_follows (stock.store.limit - Recyclable.byteSize item)).coherent
  have listed' := (trimmedCoherent.offer_follows item).coherent.listed
  rw [offered] at listed
  rw [show (stock.trimTo _).2.offer item = _ from again] at listed'
  have sameBuckets := listed'.unique listed
  refine ⟨_, offered, again.trans (congrArg (Admission.admitted [], ·) ?_)⟩
  exact stock_eq_of_parts rfl sameBuckets rfl rfl

theorem puts_in_stages (coherent : Coherent stock) (memory : φ) {item : α} (admitted : settings.admits item = true)
    (approved : (answer (.approve item) memory).1 = true) (affordable : Recyclable.byteSize item < stock.store.limit) :
    PutsInStages settings answer stock memory item := by
  obtain ⟨final, offered, again⟩ := coherent.offer_in_stages (UInt64.not_le.mpr affordable)
  have put := visit_put settings answer admitted approved offered
  constructor
  · simp only [put, visit_trim]
    rfl
  · simp only [put, visit_trim]
    intro approved'
    have placed := visit_put settings answer admitted approved'
      (show _ = (Admission.admitted (([] : List (Entry (Ticket σ) α)).map (·.value)), final) from again)
    rw [placed]
    exact ⟨rfl, rfl⟩

end Pool

end MemoryBudget
