import MemoryBudget.Proofs.Lru.Meaning
import MemoryBudget.Proofs.Pool.Listing
import MemoryBudget.Proofs.Pool.Shelves

/-!
# The meaning of a stock

A stock means the shelf of its objects. As long as its store and its buckets are in step, each operation has the
outcome that it has on the shelf, leaves a stock that means the changed shelf, and keeps store and buckets in step.
-/

set_option autoImplicit false

namespace MemoryBudget

namespace Pool

namespace Stock

open RecencyList

variable {α σ ρ : Type} [DecidableEq σ] [Hashable σ]

def shelf (stock : Stock α σ) : Shelf α :=
  { base := stock.store.budget.base, limit := stock.store.limit, items := stock.items, tally := stock.tally }

/-- The shelf depends on the meaning of the store alone. -/
theorem shelf_eq (stock : Stock α σ) :
    stock.shelf = {
      base := stock.store.meaning.base
      limit := stock.store.meaning.limit
      items := stock.store.meaning.entries.map (·.value)
      tally := stock.tally } := rfl

variable [Ord σ] [Recyclable α σ]

/-- The buckets list the entries of an intact store, these keep account of their objects, and the next serial
number is new. -/
structure Coherent (stock : Stock α σ) : Prop where
  intact : Lru.Intact stock.store
  listed : Lists stock.buckets stock.store.entries
  faithful : ∀ entry ∈ stock.store.entries, Faithful entry
  numbered : ∀ entry ∈ stock.store.entries, entry.key.serial < stock.nextSerial

structure Follows (actual : ρ × Stock α σ) (meant : ρ × Shelf α) : Prop where
  outcome : actual.1 = meant.1
  state : actual.2.shelf = meant.2
  coherent : Coherent actual.2

theorem of_limit_coherent (limit : UInt64) : Coherent (ofLimit limit : Stock α σ) where
  intact := Lru.of_limit_intact limit
  listed := lists_nothing
  faithful := fun _ none => nomatch none
  numbered := fun _ none => nomatch none

variable {stock : Stock α σ}

theorem Coherent.usage_eq (coherent : Coherent stock) : stock.store.usage = stock.shelf.usage := by
  have used : stock.store.used.toNat = Shelf.totalSize stock.items := by
    rw [coherent.intact.exact_use, items, Shelf.total_size_map coherent.faithful]
  have count : stock.store.count = stock.items.length := by
    rw [coherent.intact.exact_count, items, List.length_map]
  rw [Lru.usage, count, ← UInt64.ofNat_toNat (x := stock.store.used), used]
  rfl

theorem Coherent.roomy_eq (coherent : Coherent stock) : stock.store.budget.roomy = stock.shelf.roomy := by
  have used : stock.store.budget.used.toNat = Shelf.totalSize stock.items := by
    rw [items, Shelf.total_size_map coherent.faithful]
    exact coherent.intact.exact_use
  rw [Budget.roomy_eq, used]
  rfl

/-! ## The entry of an object -/

omit [Ord σ] in
def entryFor (stock : Stock α σ) (item : α) : Entry (Ticket σ) α :=
  ⟨⟨Recyclable.shape item, stock.nextSerial⟩, item, Recyclable.byteSize item⟩

/-- The stock that has listed an object, before it is settled. -/
def enlist (stock : Stock α σ) (item : α) : Stock α σ :=
  { stock with
    nextSerial := stock.nextSerial + 1
    buckets := stock.buckets.push (Recyclable.shape item) stock.nextSerial
    tally := { stock.tally with puts := stock.tally.puts + 1 } }

theorem offer_of_refused {item : α} {entry : Entry (Ticket σ) α} {store' : Lru (Ticket σ) α}
    (inserted : stock.store.insert (stock.entryFor item) = (.refused entry, store')) :
    stock.offer item = (.refused entry.value, { stock with nextSerial := stock.nextSerial + 1, store := store' }) := by
  rw [entryFor] at inserted
  simp only [offer, inserted]

theorem offer_of_admitted {item : α} {previous : Option (Entry (Ticket σ) α)}
    {evicted : List (Entry (Ticket σ) α)} {store' : Lru (Ticket σ) α}
    (inserted : stock.store.insert (stock.entryFor item) = (.admitted previous evicted, store')) :
    stock.offer item = (.admitted ((stock.enlist item).settle (evicted, store')).1,
      ((stock.enlist item).settle (evicted, store')).2) := by
  rw [entryFor] at inserted
  simp only [offer, inserted]
  rfl

theorem Coherent.offered_absent (coherent : Coherent stock) (item : α) :
    ∀ other ∈ stock.store.entries, (other.key == (stock.entryFor item).key) = false := by
  intro other member
  have lower := coherent.numbered other member
  rw [beq_eq_false_iff_ne]
  intro same
  rw [same] at lower
  exact Nat.lt_irrefl _ lower

/-- A new serial number replaces nothing, so that all resident entries are the others. -/
theorem Coherent.insert_affordable (coherent : Coherent stock) {item : α}
    (affordable : ¬ stock.store.limit ≤ Recyclable.byteSize item) :
    stock.store.meaning.insert (stock.entryFor item) =
      (.admitted none
        (split (stock.store.limit.toNat - (Recyclable.byteSize item).toNat) stock.store.entries).2,
      { stock.store.meaning with entries := stock.entryFor item ::
        (split (stock.store.limit.toNat - (Recyclable.byteSize item).toNat) stock.store.entries).1 }) := by
  have notFound : stock.store.meaning.find? (stock.entryFor item).key = none := by
    rw [RecencyList.find?, List.find?_eq_none]
    intro other member
    rw [coherent.offered_absent item other member]
    exact Bool.false_ne_true
  have others : stock.store.meaning.others (stock.entryFor item).key = stock.store.entries :=
    others_of_absent notFound
  rw [insert_of_affordable (show ¬ stock.store.meaning.limit ≤ (stock.entryFor item).cost from affordable),
    notFound, others]
  rfl

/-- A refused object has had a serial number, and that is all. -/
theorem Coherent.refuse_follows (coherent : Coherent stock) (item : α) {store' : Lru (Ticket σ) α}
    (state : store'.meaning = stock.store.meaning) (intact : Lru.Intact store') :
    Follows (Admission.refused item, { stock with nextSerial := stock.nextSerial + 1, store := store' })
      (Admission.refused item, stock.shelf) := by
  have sameEntries : store'.entries = stock.store.entries := congrArg RecencyList.entries state
  constructor
  · rfl
  · simp only [shelf_eq, state]
  · refine ⟨intact, sameEntries ▸ coherent.listed, sameEntries ▸ coherent.faithful, ?_⟩
    rw [sameEntries]
    intro entry member
    exact Nat.lt_succ_of_lt (coherent.numbered entry member)

/-! ## Evicting -/

variable [Std.TransOrd σ] [Std.LawfulEqOrd σ]

/-- Settling with a store that has just evicted takes the evicted entries out of the buckets. -/
theorem settle_follows {outcome : List (Entry (Ticket σ) α) × Lru (Ticket σ) α}
    {meant : List (Entry (Ticket σ) α) × RecencyList (Ticket σ) α} (agrees : Lru.Agrees outcome meant)
    (listed : Lists stock.buckets (meant.2.entries ++ meant.1.reverse))
    (distinct : DistinctKeys (meant.2.entries ++ meant.1.reverse))
    (faithful : ∀ entry ∈ meant.2.entries, Faithful entry)
    (numbered : ∀ entry ∈ meant.2.entries, entry.key.serial < stock.nextSerial) :
    Follows (stock.settle outcome) (meant.1.map (·.value), {
      base := meant.2.base
      limit := meant.2.limit
      items := meant.2.entries.map (·.value)
      tally := { stock.tally with evictions := stock.tally.evictions + meant.1.length } }) := by
  obtain ⟨evicted, store⟩ := outcome
  obtain ⟨evicted', meant⟩ := meant
  obtain ⟨same, state, intact⟩ := agrees
  cases same
  cases state
  constructor
  · rfl
  · rfl
  · exact ⟨intact, listed.erase_evicted distinct, faithful, numbered⟩

theorem Coherent.settle_follows (coherent : Coherent stock)
    {outcome : List (Entry (Ticket σ) α) × Lru (Ticket σ) α}
    {meant : List (Entry (Ticket σ) α) × RecencyList (Ticket σ) α} (agrees : Lru.Agrees outcome meant)
    (parted : stock.store.entries = meant.2.entries ++ meant.1.reverse) :
    Follows (stock.settle outcome) (meant.1.map (·.value), {
      base := meant.2.base
      limit := meant.2.limit
      items := meant.2.entries.map (·.value)
      tally := { stock.tally with evictions := stock.tally.evictions + meant.1.length } }) := by
  have stays : ∀ entry ∈ meant.2.entries, entry ∈ stock.store.entries := by
    intro entry member
    rw [parted]
    exact List.mem_append_left _ member
  apply Stock.settle_follows agrees
  · exact parted ▸ coherent.listed
  · exact parted ▸ coherent.intact.distinct_keys
  · exact fun entry member => coherent.faithful entry (stays entry member)
  · exact fun entry member => coherent.numbered entry (stays entry member)

theorem Coherent.trim_to_follows (coherent : Coherent stock) (target : UInt64) :
    Follows (stock.trimTo target) (stock.shelf.trimTo target.toNat) := by
  rw [Shelf.trim_to_map stock.shelf target.toNat coherent.faithful rfl]
  exact coherent.settle_follows (coherent.intact.trim_agrees target) (split_append_reverse _ _).symm

theorem Coherent.clear_follows (coherent : Coherent stock) : Follows stock.clear stock.shelf.clear := by
  rw [Shelf.clear_map stock.shelf stock.store.entries rfl]
  exact coherent.settle_follows coherent.intact.clear_agrees (List.reverse_reverse _).symm

theorem Coherent.trim_follows (coherent : Coherent stock) (clearsAt pressure : Pressure) :
    Follows (stock.trim clearsAt pressure) (stock.shelf.trim clearsAt pressure) := by
  by_cases clears : clearsAt.level ≤ pressure.level
  · rw [trim, Shelf.trim, if_pos clears, if_pos clears]
    exact coherent.clear_follows
  · rw [trim, Shelf.trim, if_neg clears, if_neg clears, Lru.trim]
    cases pressure.retention with
    | everything => exact ⟨rfl, rfl, coherent.intact, coherent.listed, coherent.faithful, coherent.numbered⟩
    | half => exact coherent.trim_to_follows (halfSize stock.store.limit)
    | nothing => exact coherent.clear_follows

/-- A multiplier is refused by the stock as by the shelf; else both are left within the new limit. -/
theorem Coherent.rescale_follows (coherent : Coherent stock) (multiplier : Multiplier) :
    (∃ invalid, stock.rescale multiplier = .error invalid ∧
      stock.shelf.rescale multiplier = .error invalid) ∨
    ∃ actual meant, stock.rescale multiplier = .ok actual ∧
      stock.shelf.rescale multiplier = .ok meant ∧ Follows actual meant := by
  rcases coherent.intact.rescale_agrees multiplier with ⟨invalid, refused, meant⟩ | ⟨actual, meant, ok, ok', agrees⟩
  · cases valid : multiplier.validate with
    | error invalid' =>
        rw [rescale_of_invalid valid] at meant
        cases meant
        refine Or.inl ⟨invalid, ?_, Shelf.rescale_of_invalid valid stock.shelf⟩
        rw [rescale, refused]
        rfl
    | ok _ =>
        rw [rescale_of_valid valid] at meant
        cases meant
  · cases valid : multiplier.validate with
    | error invalid =>
        rw [rescale_of_invalid valid] at ok'
        cases ok'
    | ok _ =>
        rw [rescale_of_valid valid] at ok'
        cases ok'
        refine Or.inr ⟨stock.settle actual, _, ?_, Shelf.rescale_of_valid valid stock.shelf, ?_⟩
        · rw [rescale, ok]
          rfl
        · rw [Shelf.trim_to_map _ _ coherent.faithful rfl]
          exact coherent.settle_follows agrees (split_append_reverse _ _).symm

/-! ## Offering -/

/-- Listing an object and settling with the store that has admitted it. -/
theorem Coherent.admit_follows (coherent : Coherent stock) {item : α} {kept evicted : List (Entry (Ticket σ) α)}
    {store' : Lru (Ticket σ) α} (agrees : Lru.Agrees (evicted, store')
      (evicted, { stock.store.meaning with entries := stock.entryFor item :: kept }))
    (parted : kept ++ evicted.reverse = stock.store.entries) :
    Follows ((stock.enlist item).settle (evicted, store')) (evicted.map (·.value), { stock.shelf with
      items := item :: kept.map (·.value)
      tally := { stock.tally with
        puts := stock.tally.puts + 1
        evictions := stock.tally.evictions + evicted.length } }) := by
  have stays : ∀ entry ∈ kept, entry ∈ stock.store.entries := by
    intro entry member
    rw [← parted]
    exact List.mem_append_left _ member
  apply Stock.settle_follows agrees
  · rw [List.cons_append, parted]
    exact coherent.listed.push (stock.entryFor item)
  · rw [List.cons_append, parted]
    exact distinct_keys_cons coherent.intact.distinct_keys (coherent.offered_absent item)
  · intro entry member
    rcases List.mem_cons.mp member with rfl | old
    · exact ⟨rfl, rfl⟩
    · exact coherent.faithful entry (stays entry old)
  · intro entry member
    rcases List.mem_cons.mp member with rfl | old
    · exact Nat.lt_succ_self _
    · exact Nat.lt_succ_of_lt (coherent.numbered entry (stays entry old))

theorem Coherent.offer_follows (coherent : Coherent stock) (item : α) :
    Follows (stock.offer item) (stock.shelf.offer item) := by
  have agrees := coherent.intact.insert_agrees (stock.entryFor item)
  cases inserted : stock.store.insert (stock.entryFor item) with
  | mk placement store' =>
      rw [inserted] at agrees
      by_cases tooLarge : stock.store.limit ≤ Recyclable.byteSize item
      · rw [insert_of_too_costly
          (show stock.store.meaning.limit ≤ (stock.entryFor item).cost from tooLarge)] at agrees
        obtain ⟨outcome, state, intact⟩ := agrees
        cases outcome
        rw [offer_of_refused inserted, Shelf.offer, if_pos (show stock.shelf.limit ≤ _ from tooLarge)]
        exact coherent.refuse_follows item state intact
      · rw [coherent.insert_affordable tooLarge] at agrees
        obtain ⟨outcome, state, intact⟩ := agrees
        cases outcome
        rw [offer_of_admitted inserted, Shelf.offer, if_neg (show ¬ stock.shelf.limit ≤ _ from tooLarge),
          Shelf.trim_to_map _ _ coherent.faithful rfl]
        obtain ⟨evicted, shelved, coherent'⟩ :=
          coherent.admit_follows ⟨rfl, state, intact⟩ (split_append_reverse _ _)
        exact ⟨congrArg Admission.admitted evicted, shelved, coherent'⟩

/-! ## Taking -/

omit [Std.TransOrd σ] [Std.LawfulEqOrd σ] in
theorem Coherent.mem_shapes (coherent : Coherent stock) (shape : σ) :
    shape ∈ stock.items.map Recyclable.shape ↔ ∃ entry ∈ stock.store.entries, entry.key.shape = shape := by
  rw [items, List.map_map, List.mem_map]
  constructor
  · rintro ⟨entry, member, same⟩
    exact ⟨entry, member, (coherent.faithful entry member).shape.trans same⟩
  · rintro ⟨entry, member, same⟩
    exact ⟨entry, member, (coherent.faithful entry member).shape.symm.trans same⟩

theorem Coherent.least_from_eq (coherent : Coherent stock) (requested : σ) :
    stock.buckets.leastFrom? requested = Shelf.leastFrom? requested (stock.items.map Recyclable.shape) := by
  have least := coherent.listed.least_from requested
  have least' := least_from_is_least requested (stock.items.map Recyclable.shape)
  have same : (· ∈ stock.items.map Recyclable.shape) =
      fun shape => ∃ entry ∈ stock.store.entries, entry.key.shape = shape := by
    funext shape
    exact propext (coherent.mem_shapes shape)
  rw [same] at least'
  exact least.unique least'

/-- The stock finds the shape that serves a request on the shelf, if an object of that shape is there. -/
theorem Coherent.find_eq_some (coherent : Coherent stock) (matching : Matching) (requested shape : σ) :
    stock.find? matching requested = some shape ↔
      stock.shelf.serving? matching requested = some shape ∧
        ∃ entry ∈ stock.store.entries, entry.key.shape = shape := by
  cases matching with
  | exact =>
      rw [find?, Shelf.serving?, Option.map_eq_some_iff, ← coherent.listed.find_is_some shape]
      constructor
      · rintro ⟨bucket, found, rfl⟩
        exact ⟨rfl, Option.isSome_iff_exists.mpr ⟨bucket, found⟩⟩
      · rintro ⟨same, resident⟩
        cases same
        obtain ⟨bucket, found⟩ := Option.isSome_iff_exists.mp resident
        exact ⟨bucket, found, rfl⟩
  | atLeast =>
      have same : stock.find? .atLeast requested = stock.shelf.serving? .atLeast requested := by
        rw [find?, Shelf.serving?, coherent.least_from_eq, coherent.roomy_eq]
        rfl
      constructor
      · intro found
        refine ⟨same.symm.trans found, ?_⟩
        obtain ⟨candidate, least, served⟩ := Option.bind_eq_some_iff.mp found
        split at served
        · cases served
          have isLeast := coherent.listed.least_from requested
          rw [least] at isLeast
          exact isLeast.1
        · cases served
      · rintro ⟨serving, _⟩
        exact same.trans serving

/-- What the bucket of a shape gives up is the key of the freshest entry of that shape, and the store has that entry. -/
theorem Coherent.give_up_freshest (coherent : Coherent stock) {fresher colder : List (Entry (Ticket σ) α)}
    {entry : Entry (Ticket σ) α} (parted : stock.store.entries = fresher ++ entry :: colder)
    (freshest : ∀ other ∈ fresher, other.key.shape ≠ entry.key.shape) :
    ∃ buckets' store', stock.buckets.pop? entry.key.shape = some (entry.key.serial, buckets') ∧
      stock.store.remove ⟨entry.key.shape, entry.key.serial⟩ = (some entry, store') ∧
      Lists buckets' (fresher ++ colder) ∧ Lru.Intact store' ∧
      store'.meaning = { stock.store.meaning with entries := fresher ++ colder } := by
  have listed := coherent.listed
  rw [parted] at listed
  obtain ⟨buckets', popped, listed'⟩ := listed.pop freshest
  have removes := coherent.intact.remove_resident parted
  cases removed : stock.store.remove entry.key with
  | mk outcome store' =>
      rw [removed] at removes
      obtain ⟨same, state, intact⟩ := removes
      cases same
      exact ⟨buckets', store', popped, rfl, listed', intact, state⟩

/-- The freshest entry of a shape leaves the buckets and the store, and nothing else does. -/
theorem Coherent.withdraw_freshest (coherent : Coherent stock) {matching : Matching} {requested : σ}
    {fresher colder : List (Entry (Ticket σ) α)} {entry : Entry (Ticket σ) α}
    (parted : stock.store.entries = fresher ++ entry :: colder)
    (freshest : ∀ other ∈ fresher, other.key.shape ≠ entry.key.shape)
    (found : stock.find? matching requested = some entry.key.shape) :
    ∃ stock', stock.withdraw? matching requested = some (entry.value, stock') ∧ Coherent stock' ∧
      stock'.shelf = { stock.shelf with items := fresher.map (·.value) ++ colder.map (·.value) } := by
  obtain ⟨buckets', store', popped, removed, listed, intact, state⟩ := coherent.give_up_freshest parted freshest
  have kept : store'.entries = fresher ++ colder := congrArg RecencyList.entries state
  have stays : ∀ other ∈ fresher ++ colder, other ∈ stock.store.entries := by
    intro other member
    rw [parted]
    rcases List.mem_append.mp member with before | after
    · exact List.mem_append_left _ before
    · exact List.mem_append_right _ (List.mem_cons_of_mem _ after)
  refine ⟨{ stock with store := store', buckets := buckets' }, ?_, ⟨intact, kept ▸ listed, ?_, ?_⟩, ?_⟩
  · simp only [withdraw?, found, popped, removed, bind, Option.bind]
    rfl
  · rw [kept]
    exact fun other member => coherent.faithful other (stays other member)
  · rw [kept]
    exact fun other member => coherent.numbered other (stays other member)
  · simp only [shelf_eq, state, List.map_append]

omit [Std.TransOrd σ] [Std.LawfulEqOrd σ] in
theorem take_of_not_found {matching : Matching} {requested : σ} (missed : stock.find? matching requested = none) :
    stock.take matching requested =
      (none, { stock with tally := { stock.tally with misses := stock.tally.misses + 1 } }) := by
  simp only [take, withdraw?, missed, bind, Option.bind]

theorem Coherent.miss_follows (coherent : Coherent stock) {matching : Matching} {requested : σ}
    (missed : stock.find? matching requested = none) :
    Follows (stock.take matching requested) (stock.shelf.take matching requested) := by
  have missing : ∀ item ∈ stock.shelf.items,
      stock.shelf.serving? matching requested ≠ some (Recyclable.shape item) := by
    intro item member serving
    have resident := (coherent.mem_shapes (Recyclable.shape item)).mp (List.mem_map_of_mem member)
    have served := (coherent.find_eq_some matching requested _).mpr ⟨serving, resident⟩
    rw [missed] at served
    cases served
  rw [take_of_not_found missed, Shelf.take_of_missing missing]
  exact ⟨rfl, rfl, coherent.intact, coherent.listed, coherent.faithful, coherent.numbered⟩

theorem Coherent.hit_follows (coherent : Coherent stock) {matching : Matching} {requested shape : σ}
    (found : stock.find? matching requested = some shape) :
    Follows (stock.take matching requested) (stock.shelf.take matching requested) := by
  obtain ⟨serving, resident⟩ := (coherent.find_eq_some matching requested shape).mp found
  obtain ⟨fresher, entry, colder, parted, rfl, freshest⟩ := exists_freshest resident
  obtain ⟨stock', withdrawn, coherent', shelved⟩ := coherent.withdraw_freshest parted freshest found
  have faithful : ∀ other ∈ fresher ++ entry :: colder, Faithful other := by
    rw [← parted]
    exact coherent.faithful
  have shapeOfValue := (faithful entry (List.mem_append_right _ List.mem_cons_self)).shape
  have parted' : stock.shelf.items = fresher.map (·.value) ++ entry.value :: colder.map (·.value) := by
    rw [← List.map_cons, ← List.map_append, ← parted]
    rfl
  have freshest' : ∀ other ∈ fresher.map (·.value),
      Recyclable.shape other ≠ Recyclable.shape entry.value := by
    intro item member
    obtain ⟨other, isFresher, rfl⟩ := List.mem_map.mp member
    rw [← shapeOfValue, ← (faithful other (List.mem_append_left _ isFresher)).shape]
    exact freshest other isFresher
  rw [take, withdrawn, Shelf.take_of_present parted' (shapeOfValue ▸ serving) freshest']
  refine ⟨rfl, ?_, coherent'.intact, coherent'.listed, coherent'.faithful, coherent'.numbered⟩
  -- A hit changes the tally of what the withdrawal has left, and the shelf of that is known.
  show ({ stock'.shelf with tally := { stock'.shelf.tally with hits := stock'.shelf.tally.hits + 1 } } : Shelf α) = _
  rw [shelved]

theorem Coherent.take_follows (coherent : Coherent stock) (matching : Matching) (requested : σ) :
    Follows (stock.take matching requested) (stock.shelf.take matching requested) := by
  cases found : stock.find? matching requested with
  | none => exact coherent.miss_follows found
  | some shape => exact coherent.hit_follows found

end Stock

end Pool

end MemoryBudget
