import MemoryBudget.Proofs.Dialogue.Interleaving
import MemoryBudget.Proofs.Lru.Relief
import MemoryBudget.Proofs.Pool.Conservation

/-!
# Serial numbers

A stock gives out serial numbers in ascending order and takes none back. In its order of recency an entry is first when
it is new and keeps its rank among the others until it leaves, so that the serial numbers fall from the freshest entry
to the coldest one, whatever shapes they have. Not more numbers are given out than objects are put.
-/

set_option autoImplicit false

namespace MemoryBudget

namespace Lru

variable {κ α : Type} [BEq κ] [Hashable κ] [EquivBEq κ] [LawfulHashable κ] {store : Lru κ α}

theorem Intact.give_way_sheds (intact : Intact store) (clearsAt pressure : Pressure) :
    Sheds store (store.giveWay clearsAt pressure) := by
  unfold giveWay
  split
  · exact intact.clear_sheds
  · exact intact.pressure_sheds pressure

theorem Intact.sheds_of_rescaled (intact : Intact store) {multiplier : Multiplier}
    {outcome : List (Entry κ α) × Lru κ α} (rescaled : store.rescale multiplier = .ok outcome) :
    Sheds store outcome := by
  rcases intact.rescale_sheds multiplier with ⟨invalid, refused⟩ | ⟨actual, ok, sheds⟩
  · cases refused.symm.trans rescaled
  · cases ok.symm.trans rescaled
    exact sheds

end Lru

namespace Pool

open RecencyList Stock

variable {α σ : Type} [DecidableEq σ] [Hashable σ] [Ord σ] [Recyclable α σ]

namespace Stock

variable {stock stock' : Stock α σ}

/-! ## What is put -/

/-- What comes of the entry of an object in the store. Nothing is displaced, for the key of the object is new. -/
inductive Inserts (stock : Stock α σ) (item : α) : Placement (Ticket σ) α × Lru (Ticket σ) α → Prop where
  | refuses {store' : Lru (Ticket σ) α} (same : store'.entries = stock.store.entries) :
      Inserts stock item (.refused (stock.entryFor item), store')
  /-- The entry comes first, and the coldest ones leave. -/
  | admits {kept evicted : List (Entry (Ticket σ) α)} {store' : Lru (Ticket σ) α}
      (parted : stock.store.entries = kept ++ evicted.reverse)
      (fresh : store'.entries = stock.entryFor item :: kept) :
      Inserts stock item (.admitted none evicted, store')

theorem Coherent.inserts (coherent : Coherent stock) (item : α) :
    Inserts stock item (stock.store.insert (stock.entryFor item)) := by
  have agrees := coherent.intact.insert_agrees (stock.entryFor item)
  cases inserted : stock.store.insert (stock.entryFor item) with
  | mk placement store' =>
      rw [inserted] at agrees
      by_cases tooLarge : stock.store.limit ≤ Recyclable.byteSize item
      · rw [insert_of_too_costly
          (show stock.store.meaning.limit ≤ (stock.entryFor item).cost from tooLarge)] at agrees
        obtain ⟨outcome, state, _⟩ := agrees
        cases outcome
        exact .refuses (congrArg RecencyList.entries state)
      · rw [coherent.insert_affordable tooLarge] at agrees
        obtain ⟨outcome, state, _⟩ := agrees
        cases outcome
        exact .admits (split_append_reverse _ _).symm (congrArg RecencyList.entries state)

/-! ## What is taken -/

/-- A request takes an entry out of the buckets and out of the store, and no entry of its shape is fresher. -/
structure Serves (stock : Stock α σ) (matching : Matching) (requested shape : σ)
    (fresher : List (Entry (Ticket σ) α)) (entry : Entry (Ticket σ) α) (colder : List (Entry (Ticket σ) α))
    (buckets' : Buckets σ) (store' : Lru (Ticket σ) α) : Prop where
  parted : stock.store.entries = fresher ++ entry :: colder
  ofShape : entry.key.shape = shape
  freshest : ∀ other ∈ fresher, other.key.shape ≠ shape
  popped : stock.buckets.pop? shape = some (entry.key.serial, buckets')
  removed : stock.store.remove ⟨shape, entry.key.serial⟩ = (some entry, store')
  kept : store'.entries = fresher ++ colder
  taken : stock.take matching requested = (some entry.value, { stock with
    store := store'
    buckets := buckets'
    tally := { stock.tally with hits := stock.tally.hits + 1 } })

theorem Coherent.serves [Std.TransOrd σ] [Std.LawfulEqOrd σ] (coherent : Coherent stock) {matching : Matching}
    {requested shape : σ} (found : stock.find? matching requested = some shape) :
    ∃ fresher entry colder buckets' store',
      Serves stock matching requested shape fresher entry colder buckets' store' := by
  obtain ⟨_, resident⟩ := (coherent.find_eq_some matching requested shape).mp found
  obtain ⟨fresher, entry, colder, parted, rfl, freshest⟩ := exists_freshest resident
  obtain ⟨buckets', store', popped, removed, _, _, state⟩ := coherent.give_up_freshest parted freshest
  refine ⟨fresher, entry, colder, buckets', store', parted, rfl, freshest, popped, removed,
    congrArg RecencyList.entries state, ?_⟩
  simp only [take, withdraw?, found, popped, removed, bind, Option.bind]
  rfl

/-! ## What a step does -/

/-- A stock gives out so many serial numbers, and then has some of its entries left, perhaps after a new one. -/
inductive Numbers (stock : Stock α σ) : Nat → Stock α σ → Prop where
  | keeps {drawn : Nat} {stock' : Stock α σ} (kept : stock'.store.entries.Sublist stock.store.entries)
      (next : stock'.nextSerial = stock.nextSerial + drawn) : Numbers stock drawn stock'
  | admits {kept : List (Entry (Ticket σ) α)} {stock' : Stock α σ} (item : α)
      (old : kept.Sublist stock.store.entries) (fresh : stock'.store.entries = stock.entryFor item :: kept)
      (next : stock'.nextSerial = stock.nextSerial + 1) : Numbers stock 1 stock'

omit [Ord σ] in
theorem numbers_nothing (stock : Stock α σ) : Numbers stock 0 stock :=
  .keeps (List.Sublist.refl _) rfl

theorem settle_numbers {outcome : List (Entry (Ticket σ) α) × Lru (Ticket σ) α}
    (sheds : Lru.Sheds stock.store outcome) : Numbers stock 0 (stock.settle outcome).2 := by
  refine .keeps ?_ rfl
  rw [sheds.parted]
  exact List.sublist_append_left _ _

omit [Ord σ] in
theorem Numbers.next {drawn : Nat} (numbers : Numbers stock drawn stock') :
    stock'.nextSerial = stock.nextSerial + drawn := by
  cases numbers with
  | keeps kept next => exact next
  | admits item old fresh next => exact next

theorem Coherent.offer_numbers (coherent : Coherent stock) (item : α) : Numbers stock 1 (stock.offer item).2 := by
  have inserts := coherent.inserts item
  cases inserted : stock.store.insert (stock.entryFor item) with
  | mk placement store' =>
      rw [inserted] at inserts
      cases inserts with
      | refuses same =>
          rw [offer_of_refused inserted]
          exact .keeps (same ▸ List.Sublist.refl _) rfl
      | admits parted fresh =>
          rw [offer_of_admitted inserted]
          exact .admits item (parted ▸ List.sublist_append_left _ _) fresh rfl

section Steps

variable [Std.TransOrd σ] [Std.LawfulEqOrd σ]

theorem Coherent.take_numbers (coherent : Coherent stock) (matching : Matching) (requested : σ) :
    Numbers stock 0 (stock.take matching requested).2 := by
  cases found : stock.find? matching requested with
  | none =>
      rw [take_of_not_found found]
      exact .keeps (List.Sublist.refl _) rfl
  | some shape =>
      obtain ⟨fresher, entry, colder, buckets', store', serves⟩ := coherent.serves found
      rw [serves.taken]
      refine .keeps ?_ rfl
      rw [serves.parted, show store'.entries = _ from serves.kept]
      exact List.Sublist.append_left (List.sublist_cons_self entry colder) fresher

theorem Coherent.start_numbers (coherent : Coherent stock) (settings : Settings) (request : Call α σ) :
    Numbers stock 0 (start settings request stock).2 := by
  cases request with
  | lookup care requested =>
      have numbers := coherent.take_numbers (if care = .exact then .exact else settings.matching) requested
      rw [start]
      cases taken : stock.take (if care = .exact then .exact else settings.matching) requested with
      | mk found stock' =>
          rw [taken] at numbers
          cases found <;> exact numbers
  | put item =>
      rw [start]
      split <;> exact stock.numbers_nothing
  | trimTo target => exact settle_numbers (coherent.intact.trim_sheds target)
  | clear => exact settle_numbers coherent.intact.clear_sheds
  | trim pressure => exact settle_numbers (coherent.intact.give_way_sheds settings.clearsAt pressure)
  | rescale multiplier =>
      rw [start, rescale]
      cases rescaled : stock.store.rescale multiplier with
      | error invalid => exact stock.numbers_nothing
      | ok outcome => exact settle_numbers (coherent.intact.sheds_of_rescaled rescaled)
  | usage => exact stock.numbers_nothing
  | tally => exact stock.numbers_nothing

omit [Std.TransOrd σ] [Std.LawfulEqOrd σ] in
/-- Only an object that has been vetted gets a number. -/
theorem Coherent.resume_numbers (coherent : Coherent stock) {request : Call α σ} (work : Work request)
    (answer : (protocol α σ).Answer work.query) :
    ∃ drawn ≤ work.undecided, Numbers stock drawn (resume work answer stock).2 := by
  cases work with
  | making care requested => exact ⟨0, Nat.le_refl 0, stock.numbers_nothing⟩
  | discarding item rest reply => exact ⟨0, Nat.le_refl 0, stock.numbers_nothing⟩
  | vetting item =>
      cases answer with
      | false => exact ⟨0, Nat.zero_le 1, stock.numbers_nothing⟩
      | true =>
          have numbers := coherent.offer_numbers item
          refine ⟨1, Nat.le_refl 1, ?_⟩
          rw [resume]
          cases offered : stock.offer item with
          | mk admission stock' =>
              rw [offered] at numbers
              cases admission <;> exact numbers

end Steps

/-! ## The order of recency -/

/-- The fresher entry has the higher serial number, whatever the shapes are. -/
def Falling (entries : List (Entry (Ticket σ) α)) : Prop :=
  entries.Pairwise fun fresher colder => colder.key.serial < fresher.key.serial

theorem Numbers.falling {drawn : Nat} (numbers : Numbers stock drawn stock') (coherent : Coherent stock)
    (falling : Falling stock.store.entries) : Falling stock'.store.entries := by
  cases numbers with
  | keeps kept next => exact falling.sublist kept
  | @admits kept _ item old fresh next =>
      -- The new entry has the next number, and every number in use is below that.
      rw [fresh]
      refine List.pairwise_cons.mpr ⟨?_, falling.sublist old⟩
      intro entry member
      exact coherent.numbered entry (old.subset member)

end Stock

/-! ## Interleavings -/

section Interleavings

variable {settings : Settings} {said : List (Utterance (protocol α σ))}
  {works : List (service (α := α) (σ := σ) settings).Pending} {stock : Stock α σ}

theorem offers_of_announce {request : Call α σ} (progress : Progress (Work request) ((protocol α σ).Reply request)) :
    offers ((service settings).announce request progress) = [] := by
  cases progress <;> rfl

theorem undecided_of_discard {request : Call α σ} (reply : (protocol α σ).Reply request) (items : List α) :
    undecided ((service settings).outstanding (discard reply items)) = 0 := by
  cases items <;> rfl

/-- A put waits for approval at most once. -/
theorem undecided_of_starts {shelf : Shelf α} {request : Call α σ}
    {outcome : Progress (Work request) ((protocol α σ).Reply request) × Shelf α}
    (starts : Shelf.Starts settings shelf request outcome) :
    undecided ((service settings).outstanding outcome.1) ≤ (offers (.called request)).length := by
  cases starts with
  | recycles care requested parted kept serving counted => exact Nat.zero_le _
  | misses care requested same counted => exact Nat.zero_le _
  | vets item admits => exact Nat.le_refl 1
  | declines item => exact Nat.zero_le _
  | sheds request quiet reply sheds =>
      rw [undecided_of_discard]
      exact Nat.zero_le _

theorem undecided_of_resumes {shelf : Shelf α} {request : Call α σ} {work : Work request}
    {answer : (protocol α σ).Answer work.query}
    {outcome : Progress (Work request) ((protocol α σ).Reply request) × Shelf α}
    (resumes : Shelf.Resumes shelf work answer outcome) :
    undecided ((service settings).outstanding outcome.1) = 0 := by
  cases resumes with
  | supplies care requested item => rfl
  | refuses item approved => rfl
  | admits item parted fresh counted => exact undecided_of_discard _ _
  | discards item rest reply heard => exact undecided_of_discard _ _

/-- A coherent stock with falling serial numbers. Objects that wait for approval have none yet. -/
structure Numbered (said : List (Utterance (protocol α σ))) (stock : Stock α σ)
    (works : List (service (α := α) (σ := σ) settings).Pending) : Prop where
  coherent : Coherent stock
  falling : Falling stock.store.entries
  given : undecided works + stock.nextSerial ≤ (said.flatMap offers).length

variable [Std.TransOrd σ] [Std.LawfulEqOrd σ]

theorem Numbered.started (numbered : Numbered said stock works) (request : Call α σ) :
    Numbered (said ++ [.called request, (service settings).announce request (start settings request stock).1])
      (start settings request stock).2
      ((service settings).outstanding (start settings request stock).1 ++ works) := by
  obtain ⟨coherent, falling, given⟩ := numbered
  have follows := coherent.start_follows settings request
  have numbers := coherent.start_numbers settings request
  have waiting : undecided ((service settings).outstanding (start settings request stock).1) ≤ _ :=
    follows.outcome ▸ undecided_of_starts (Shelf.start_meets settings stock.shelf request)
  refine ⟨follows.coherent, numbers.falling coherent falling, ?_⟩
  simp only [undecided_append, numbers.next, List.flatMap_append, List.flatMap_cons, List.flatMap_nil,
    offers_of_announce, List.length_append, List.length_nil]
  omega

theorem Numbered.resumed {later earlier : List (service (α := α) (σ := σ) settings).Pending} {request : Call α σ}
    {work : Work request} (numbered : Numbered said stock (later ++ ⟨request, work⟩ :: earlier))
    (answer : (protocol α σ).Answer work.query) :
    Numbered (said ++ [.answered work.query answer, (service settings).announce request (resume work answer stock).1])
      (resume work answer stock).2
      (later ++ (service settings).outstanding (resume work answer stock).1 ++ earlier) := by
  obtain ⟨coherent, falling, given⟩ := numbered
  have follows := coherent.resume_follows work answer
  obtain ⟨drawn, vetted, numbers⟩ := coherent.resume_numbers work answer
  have waiting : undecided ((service settings).outstanding (resume work answer stock).1) = 0 :=
    follows.outcome ▸ undecided_of_resumes (Shelf.resume_meets stock.shelf work answer)
  refine ⟨follows.coherent, numbers.falling coherent falling, ?_⟩
  rw [undecided_append, undecided_cons] at given
  simp only [undecided_append, waiting, numbers.next, List.flatMap_append, List.flatMap_cons, List.flatMap_nil,
    offers_of_announce, List.length_append, List.length_nil]
  omega

theorem numbered_throughout
    (interleaving : (service settings).Interleaving (Stock.ofLimit settings.limit) said stock works) :
    Numbered said stock works := by
  induction interleaving with
  | opening => exact ⟨of_limit_coherent settings.limit, List.Pairwise.nil, Nat.le_refl 0⟩
  | starts request before ih => exact ih.started request
  | resumes answer before ih => exact ih.resumed answer

end Interleavings

end Pool

end MemoryBudget
