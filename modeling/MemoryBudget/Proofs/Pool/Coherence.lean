import MemoryBudget.Proofs.Pool.Serials

/-!
# Buckets, keys and recency

A pool keeps its objects in a store and lists their keys in buckets, and it looks a key up in the one because it has
found it in the other. In every state that a client can meet the two are in step: each key is listed once, under the
shape of its object, and both orders are that of the serial numbers. So no object displaces another one, what is found
is there to be taken, and what is evicted is the oldest of its bucket when its turn comes.
-/

set_option autoImplicit false

namespace MemoryBudget

namespace Pool

open RecencyList Stock

variable {α σ : Type}

namespace Buckets

def tickets (buckets : Buckets σ) : List (Ticket σ) :=
  buckets.toList.flatMap fun bucket => bucket.serials.map (Ticket.mk bucket.shape)

section Listing

variable [Ord σ] [Std.TransOrd σ] {buckets : Buckets σ}

theorem Ordered.serials_of_mem (ordered : Ordered buckets) {bucket : Bucket σ} (member : bucket ∈ buckets.toList) :
    buckets.serialsOf bucket.shape = bucket.serials := by
  obtain ⟨buckets⟩ := buckets
  induction buckets with
  | nil => nomatch member
  | cons first rest ih =>
      rcases List.mem_cons.mp member with rfl | later
      · exact serials_of_least Std.ReflOrd.compare_self
      · have above := (List.pairwise_cons.mp ordered.ascending).1 bucket later
        rw [serials_of_later (by rw [above]; nofun)]
        exact ih ordered.of_cons later

variable [Std.LawfulEqOrd σ]

theorem Ordered.mem_tickets (ordered : Ordered buckets) (ticket : Ticket σ) :
    ticket ∈ buckets.tickets ↔ ticket.serial ∈ buckets.serialsOf ticket.shape := by
  rw [tickets, List.mem_flatMap]
  constructor
  · rintro ⟨bucket, member, listed⟩
    obtain ⟨serial, isListed, rfl⟩ := List.mem_map.mp listed
    rw [ordered.serials_of_mem member]
    exact isListed
  · intro listed
    obtain ⟨bucket, member, sameShape⟩ := (ordered.resident_iff ticket.shape).mp (List.ne_nil_of_mem listed)
    rw [← sameShape, ordered.serials_of_mem member] at listed
    exact ⟨bucket, member, List.mem_map.mpr ⟨ticket.serial, listed, ticket_eq sameShape rfl⟩⟩

omit [Std.TransOrd σ] in
/-- A key is in no two buckets, for these have different shapes. -/
theorem Ordered.tickets_nodup (ordered : Ordered buckets)
    (distinct : ∀ bucket ∈ buckets.toList, bucket.serials.Nodup) : buckets.tickets.Nodup := by
  rw [tickets, List.nodup_flatMap]
  constructor
  · intro bucket member
    exact (distinct bucket member).map fun _ _ same => congrArg Ticket.serial same
  · refine ordered.ascending.imp ?_
    intro bucket other below ticket inBucket inOther
    obtain ⟨_, _, rfl⟩ := List.mem_map.mp inBucket
    obtain ⟨_, _, same⟩ := List.mem_map.mp inOther
    have sameShape : other.shape = bucket.shape := congrArg Ticket.shape same
    rw [Std.LawfulEqOrd.compare_eq_iff_eq.mpr sameShape.symm] at below
    cases below

end Listing

/-- The entries are taken out of the buckets one after the other, and the serial number of each is in front of all those
that its bucket then has, from the oldest to the newest. -/
def EachOldest [Ord σ] : Buckets σ → List (Entry (Ticket σ) α) → Prop
  | _, [] => True
  | buckets, entry :: rest =>
      (∃ bucket newer, buckets.find? entry.key.shape = some bucket ∧
        bucket.serials.reverse = entry.key.serial :: newer) ∧
      (buckets.erase entry.key.shape entry.key.serial).EachOldest rest

end Buckets

section Lists

variable [DecidableEq σ] [Ord σ] {buckets : Buckets σ} {entries : List (Entry (Ticket σ) α)}

omit [Ord σ] in
theorem mem_serials_in (ticket : Ticket σ) (entries : List (Entry (Ticket σ) α)) :
    ticket.serial ∈ serialsIn ticket.shape entries ↔ ticket ∈ entries.map (·.key) := by
  simp only [serialsIn, List.mem_map, List.mem_filter, decide_eq_true_eq]
  constructor
  · rintro ⟨entry, ⟨member, sameShape⟩, sameSerial⟩
    exact ⟨entry, member, ticket_eq sameShape sameSerial⟩
  · rintro ⟨entry, member, rfl⟩
    exact ⟨entry, ⟨member, rfl⟩, rfl⟩

omit [Ord σ] in
theorem Stock.Falling.serials_in (falling : Falling entries) (shape : σ) :
    (serialsIn shape entries).Pairwise fun newer older => older < newer := by
  rw [serialsIn, List.pairwise_map]
  exact falling.sublist List.filter_sublist

omit [DecidableEq σ] [Ord σ] in
theorem Stock.Falling.keys_nodup (falling : Falling entries) : (entries.map (·.key)).Nodup := by
  rw [List.Nodup, List.pairwise_map]
  refine falling.imp ?_
  intro fresher colder lower same
  rw [same] at lower
  exact Nat.lt_irrefl _ lower

variable [Std.TransOrd σ] [Std.LawfulEqOrd σ]

theorem Lists.mem_tickets (lists : Lists buckets entries) (ticket : Ticket σ) :
    ticket ∈ buckets.tickets ↔ ticket ∈ entries.map (·.key) := by
  rw [lists.ordered.mem_tickets, lists.listed, mem_serials_in]

omit [Std.LawfulEqOrd σ] in
theorem Lists.bucket_falling (lists : Lists buckets entries) (falling : Falling entries) {bucket : Bucket σ}
    (member : bucket ∈ buckets.toList) : bucket.serials.Pairwise fun newer older => older < newer := by
  rw [← lists.ordered.serials_of_mem member, lists.listed]
  exact falling.serials_in bucket.shape

/-- The coldest entry has the oldest serial number of its shape, whatever entries of other shapes are around it. -/
theorem Lists.each_oldest {kept evicted : List (Entry (Ticket σ) α)} (lists : Lists buckets (kept ++ evicted.reverse))
    (distinct : DistinctKeys (kept ++ evicted.reverse)) : buckets.EachOldest evicted := by
  -- The buckets always list what is kept and what is still to be taken out, and the next to go is the last of that list.
  induction evicted generalizing buckets with
  | nil => trivial
  | cons coldest rest ih =>
      rw [List.reverse_cons, ← List.append_assoc] at lists distinct
      have serials : buckets.serialsOf coldest.key.shape =
          serialsIn coldest.key.shape (kept ++ rest.reverse) ++ [coldest.key.serial] := by
        rw [lists.listed, serials_in_append, serials_in_cons, if_pos rfl]
        rfl
      constructor
      · obtain ⟨bucket, found⟩ := Option.isSome_iff_exists.mp ((lists.find_is_some coldest.key.shape).mpr
          ⟨coldest, List.mem_append_right _ (List.mem_singleton_self coldest), rfl⟩)
        rw [Buckets.serialsOf, found] at serials
        refine ⟨bucket, (serialsIn coldest.key.shape (kept ++ rest.reverse)).reverse, found, ?_⟩
        rw [show bucket.serials = _ from serials, List.reverse_append]
        rfl
      · have erased := lists.erase distinct
        have distinct' := (distinct_keys_around distinct).1
        rw [List.append_nil] at erased distinct'
        exact ih erased distinct'

end Lists

variable [DecidableEq σ] [Hashable σ] [Ord σ] [Recyclable α σ]

namespace Stock

variable {stock : Stock α σ}

/-- The buckets list the keys of the store, each under the shape of its object, in the order of the serial numbers. -/
structure Tidy (stock : Stock α σ) : Prop where
  listed : stock.buckets.tickets.Perm (stock.store.entries.map (·.key))
  once : stock.buckets.tickets.Nodup
  indexed : ∀ ticket, stock.store.contains ticket = true ↔ ticket ∈ stock.buckets.tickets
  inhabited : ∀ bucket ∈ stock.buckets.toList, bucket.serials ≠ []
  shaped : ∀ entry ∈ stock.store.entries, entry.key.shape = Recyclable.shape entry.value
  numbered : ∀ entry ∈ stock.store.entries, entry.key.serial < stock.nextSerial
  /-- From the oldest to the newest. -/
  rising : ∀ bucket ∈ stock.buckets.toList, bucket.serials.reverse.Pairwise (· < ·)
  /-- From the freshest to the coldest, across all shapes. -/
  falling : stock.store.entries.Pairwise fun fresher colder => colder.key.serial < fresher.key.serial

/-- An operation that evicts entries and leaves the stock `after`. In `before` it has listed what it has admitted, and
what it has evicted is still listed. -/
inductive Forgets (stock : Stock α σ) : Stock α σ → List (Entry (Ticket σ) α) → Stock α σ → Prop where
  | trimTo (target : UInt64) :
      Forgets stock { stock with store := (stock.store.trimTo target).2 } (stock.store.trimTo target).1
        (stock.trimTo target).2
  | clear : Forgets stock { stock with store := stock.store.clear.2 } stock.store.clear.1 stock.clear.2
  | trim (clearsAt pressure : Pressure) :
      Forgets stock { stock with store := (stock.store.giveWay clearsAt pressure).2 }
        (stock.store.giveWay clearsAt pressure).1 (stock.trim clearsAt pressure).2
  | rescale (multiplier : Multiplier) {outcome : List (Entry (Ticket σ) α) × Lru (Ticket σ) α} {evicted : List α}
      {after : Stock α σ} (scaled : stock.store.rescale multiplier = .ok outcome)
      (rescaled : stock.rescale multiplier = .ok (evicted, after)) :
      Forgets stock { stock with store := outcome.2 } outcome.1 after
  | offer (item : α) {previous : Option (Entry (Ticket σ) α)} {evicted : List (Entry (Ticket σ) α)}
      {store' : Lru (Ticket σ) α}
      (inserted : stock.store.insert (stock.entryFor item) = (.admitted previous evicted, store')) :
      Forgets stock { stock.enlist item with store := store' } evicted (stock.offer item).2

variable [Std.TransOrd σ] [Std.LawfulEqOrd σ]

theorem Coherent.tidy (coherent : Coherent stock) (falling : Falling stock.store.entries) : Tidy stock := by
  have rising : ∀ bucket ∈ stock.buckets.toList, bucket.serials.Pairwise fun newer older => older < newer :=
    fun _ member => coherent.listed.bucket_falling falling member
  have once : stock.buckets.tickets.Nodup :=
    coherent.listed.ordered.tickets_nodup fun bucket member => (rising bucket member).imp Nat.ne_of_gt
  constructor
  case listed => exact (List.perm_ext_iff_of_nodup once falling.keys_nodup).mpr coherent.listed.mem_tickets
  case once => exact once
  case indexed =>
    intro ticket
    rw [coherent.intact.contains_eq, RecencyList.find?, List.find?_isSome, coherent.listed.mem_tickets, List.mem_map]
    simp only [beq_iff_eq]
    rfl
  case inhabited => exact coherent.listed.ordered.inhabited
  case shaped => exact fun entry member => (coherent.faithful entry member).shape
  case numbered => exact coherent.numbered
  case rising => exact fun bucket member => List.pairwise_reverse.mpr (rising bucket member)
  case falling => exact falling

theorem Coherent.sheds_oldest (coherent : Coherent stock) {outcome : List (Entry (Ticket σ) α) × Lru (Ticket σ) α}
    (sheds : Lru.Sheds stock.store outcome) : stock.buckets.EachOldest outcome.1 :=
  (sheds.parted ▸ coherent.listed).each_oldest (sheds.parted ▸ coherent.intact.distinct_keys)

/-- The buckets that are searched have the new serial number already; it is the newest, so it is in nobody's way. -/
theorem Coherent.admits_oldest (coherent : Coherent stock) {item : α} {previous : Option (Entry (Ticket σ) α)}
    {evicted : List (Entry (Ticket σ) α)} {store' : Lru (Ticket σ) α}
    (inserted : stock.store.insert (stock.entryFor item) = (.admitted previous evicted, store')) :
    (stock.enlist item).buckets.EachOldest evicted := by
  have inserts := coherent.inserts item
  rw [inserted] at inserts
  cases inserts with
  | admits parted fresh =>
      have listed := coherent.listed.push (stock.entryFor item)
      have distinct := distinct_keys_cons coherent.intact.distinct_keys (coherent.offered_absent item)
      rw [parted, ← List.cons_append] at listed distinct
      exact listed.each_oldest distinct

theorem Coherent.forgets_oldest (coherent : Coherent stock) {before after : Stock α σ}
    {evicted : List (Entry (Ticket σ) α)} (forgets : Forgets stock before evicted after) :
    after = before.unlist evicted ∧ before.buckets.EachOldest evicted := by
  cases forgets with
  | trimTo target => exact ⟨rfl, coherent.sheds_oldest (coherent.intact.trim_sheds target)⟩
  | clear => exact ⟨rfl, coherent.sheds_oldest coherent.intact.clear_sheds⟩
  | trim clearsAt pressure => exact ⟨rfl, coherent.sheds_oldest (coherent.intact.give_way_sheds clearsAt pressure)⟩
  | rescale multiplier scaled rescaled =>
      rw [rescale, scaled] at rescaled
      cases rescaled
      exact ⟨rfl, coherent.sheds_oldest (coherent.intact.sheds_of_rescaled scaled)⟩
  | offer item inserted =>
      rw [offer_of_admitted inserted]
      exact ⟨rfl, coherent.admits_oldest inserted⟩

end Stock

variable [Std.TransOrd σ] [Std.LawfulEqOrd σ]

/-- Whatever the clients of a pool do, the buckets are tidy at every moment, and no more serial numbers were given out
than objects were put, so that a machine word holds each of them unless more objects are put than it can count. An object
that is put displaces none, a shape that is found has an object that can be taken, the freshest one of that shape, and
every serial number that is forgotten is at the front of its bucket. -/
theorem buckets_stay_tidy {settings : Settings} {said : List (Utterance (protocol α σ))} {stock : Stock α σ}
    {works : List (service (α := α) (σ := σ) settings).Pending}
    (interleaving : (service settings).Interleaving (Stock.ofLimit settings.limit) said stock works) :
    Tidy stock ∧ stock.nextSerial ≤ (said.flatMap offers).length ∧
    (∀ item, Inserts stock item (stock.store.insert (stock.entryFor item))) ∧
    (∀ matching requested shape, stock.find? matching requested = some shape →
      ∃ fresher entry colder buckets' store',
        Serves stock matching requested shape fresher entry colder buckets' store') ∧
    ∀ before evicted after, Forgets stock before evicted after →
      after = before.unlist evicted ∧ before.buckets.EachOldest evicted := by
  obtain ⟨coherent, falling, given⟩ := numbered_throughout interleaving
  refine ⟨coherent.tidy falling, ?_, coherent.inserts, ?_, ?_⟩
  · exact Nat.le_trans (Nat.le_add_left _ _) given
  · exact fun _ _ _ found => coherent.serves found
  · exact fun _ _ _ forgets => coherent.forgets_oldest forgets

/-- Two blocks are put and a third one of the shape of the first is about to be: the first one will leave, and what is
in front of its bucket is its serial number and not the new one. -/
theorem third_block_evicts_from_its_own_bucket :
    let settings : Settings :=
      { limit := 35, largestItem := none, matching := .atLeast, clearsAt := Pressure.background }
    let client : Client (protocol (Block .anyIfRoomy) UInt64) Unit
      | .make requested => .done (Block.fresh requested)
      | .approve _ => .done true
      | .discard _ => .done ()
    let first : Block .anyIfRoomy := ⟨10, 10, 1, true⟩
    let second : Block .anyIfRoomy := ⟨20, 20, 2, true⟩
    let third : Block .anyIfRoomy := ⟨10, 10, 3, true⟩
    let script : Script (protocol (Block .anyIfRoomy) UInt64) Unit Unit :=
      .call (.put first) fun _ => .call (.put second) fun _ => .done ()
    let opening : Moment (service settings) Unit Unit := .opening script () (Stock.ofLimit settings.limit)
    let stock := (opening.advance client 4).2.state
    stock.items = [second, first] ∧ Tidy stock ∧ stock.nextSerial ≤ 2 ∧
      (∃ fresher entry colder buckets' store',
        Serves stock .atLeast 20 20 fresher entry colder buckets' store' ∧ entry.value = second) ∧
      ∃ before entry after, Forgets stock before [entry] after ∧ entry.value = first ∧ after.items = [third, second] ∧
        before.buckets.EachOldest [entry] := by
  intro settings client first second third script opening stock
  have mirrored := (shelving_mirrors settings).advance client 4 opening (of_limit_coherent settings.limit)
  have puts : ((opening.advance client 4).1.flatMap offers).length = 2 :=
    (congrArg (fun outcome => (outcome.1.flatMap offers).length) mirrored).symm
  have shelved : stock.shelf = {
      base := 35
      limit := 35
      items := [second, first]
      tally := { hits := 0, misses := 0, puts := 2, evictions := 0 } } := (congrArg (·.2.state) mirrored).symm
  have interleaving : (service settings).Interleaving (Stock.ofLimit settings.limit) (opening.advance client 4).1
      stock (opening.advance client 4).2.works := (Moment.leads_advance client 4 opening).interleaving
  obtain ⟨tidy, given, inserts, serves, oldest⟩ := buckets_stay_tidy interleaving
  have coherent := (numbered_throughout interleaving).coherent
  clear_value stock
  have items : stock.items = [second, first] := congrArg Shelf.items shelved
  refine ⟨items, tidy, puts ▸ given, ?_, ?_⟩
  · have found : stock.find? .atLeast 20 = some 20 := by
      refine (coherent.find_eq_some .atLeast 20 20).mpr ⟨?_, (coherent.mem_shapes 20).mp ?_⟩
      · rw [shelved]
        rfl
      · rw [items]
        decide
    obtain ⟨fresher, entry, colder, buckets', store', served⟩ := serves .atLeast 20 20 found
    refine ⟨fresher, entry, colder, buckets', store', served, ?_⟩
    have taken := (coherent.take_follows .atLeast 20).outcome
    rw [served.taken, shelved] at taken
    exact Option.some.inj taken
  · obtain ⟨outcome, state, _⟩ := coherent.offer_follows third
    rw [shelved] at outcome state
    have left : (stock.offer third).2.items = [third, second] := congrArg Shelf.items state
    have insertion := inserts third
    cases inserted : stock.store.insert (stock.entryFor third) with
    | mk placement store' =>
        rw [inserted] at insertion
        cases insertion with
        | refuses same =>
            rw [offer_of_refused inserted] at outcome
            cases outcome
        | @admits kept evicted _ parted fresh =>
            have forgets : Forgets stock _ evicted _ := .offer third inserted
            rw [offer_of_admitted inserted] at outcome
            have values : evicted.map (·.value) = [first] := Admission.admitted.inj outcome
            obtain ⟨entry, rfl, same⟩ := List.map_eq_singleton_iff.mp values
            exact ⟨_, entry, _, forgets, same, left, (oldest _ _ _ forgets).2⟩

end Pool

end MemoryBudget
