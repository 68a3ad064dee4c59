import MemoryBudget.Pool.Clients
import MemoryBudget.Proofs.Pool.Refinement
import MemoryBudget.Proofs.Pool.Steps
import MemoryBudget.Proofs.Pool.Views

/-!
# Buffers fit best

A pool of buffers looks at one candidate only, the least resident extent that is not below the request. The order of
extents puts the element first, so that candidate is the shortest buffer that is long enough whenever there is one. A
shorter buffer is modest where a longer one is; so if the candidate does not serve, no resident buffer does.
-/

set_option autoImplicit false

namespace MemoryBudget

namespace Buffer

open Pool

/-- The buffer is of the requested kind and long enough; while more than half of the limit is in use, it is at most
eight times as long as requested. -/
structure Eligible (requested : Extent) (usage : Usage) (buffer : Buffer) : Prop where
  element : buffer.element = requested.element
  longEnough : requested.length ≤ buffer.length
  modest : 2 * usage.used.toNat ≤ usage.limit.toNat ∨ buffer.length ≤ 8 * requested.length

instance (requested : Extent) (usage : Usage) (buffer : Buffer) : Decidable (buffer.Eligible requested usage) :=
  decidable_of_iff (buffer.element = requested.element ∧ requested.length ≤ buffer.length ∧
      (2 * usage.used.toNat ≤ usage.limit.toNat ∨ buffer.length ≤ 8 * requested.length))
    ⟨fun ⟨element, longEnough, modest⟩ => ⟨element, longEnough, modest⟩,
      fun ⟨element, longEnough, modest⟩ => ⟨element, longEnough, modest⟩⟩

structure Shortest (requested : Extent) (usage : Usage) (items : List Buffer) (buffer : Buffer) : Prop where
  resident : buffer ∈ items
  eligible : buffer.Eligible requested usage
  least : ∀ other ∈ items, other.Eligible requested usage → buffer.length ≤ other.length

variable {requested : Extent} {usage : Usage} {buffer other : Buffer}

theorem not_below_iff (one other : Extent) :
    compare one other ≠ .lt ↔
      other.element.rank < one.element.rank ∨ one.element = other.element ∧ other.length ≤ one.length := by
  have ranks : compare one.element other.element = compare one.element.rank other.element.rank := rfl
  rw [show compare one other = (compare one.element other.element).then (compare one.length other.length) from rfl,
    ranks]
  rcases Nat.lt_trichotomy one.element.rank other.element.rank with lower | same | higher
  · have apart : one.element ≠ other.element := fun same => absurd (congrArg Element.rank same) (Nat.ne_of_lt lower)
    simp [Nat.compare_eq_lt.mpr lower, Nat.not_lt_of_lt lower, apart]
  · simp [Element.rank_injective same, Nat.compare_eq_lt]
  · simp [Nat.compare_eq_gt.mpr higher, higher]

/-- Nothing fits better than a buffer of the requested extent. -/
theorem eligible_of_extent (usage : Usage) (buffer : Buffer) : buffer.Eligible buffer.extent usage where
  element := rfl
  longEnough := Nat.le_refl _
  modest := Or.inr (Nat.le_mul_of_pos_left _ (by decide))

theorem hand_extent (care : Care) (buffer : Buffer) : (care.hand buffer).extent = buffer.extent := by
  unfold Care.hand
  split
  · rfl
  · exact wipe_extent buffer

theorem Eligible.not_below (eligible : buffer.Eligible requested usage) :
    compare buffer.extent requested ≠ .lt := by
  rw [not_below_iff]
  exact Or.inr ⟨eligible.element, eligible.longEnough⟩

theorem Eligible.not_below_of_eligible (eligible : buffer.Eligible requested usage)
    (eligible' : other.Eligible requested usage) :
    compare other.extent buffer.extent ≠ .lt ↔ buffer.length ≤ other.length := by
  have element : other.element = buffer.element := eligible'.element.trans eligible.element.symm
  have sameRank : ¬ buffer.element.rank < other.element.rank := by simp [element]
  rw [not_below_iff]
  simp [extent, element]

/-- A candidate between the request and an eligible buffer is eligible as well. -/
theorem Eligible.of_between (eligible : buffer.Eligible requested usage)
    (fromRequest : compare other.extent requested ≠ .lt) (notAbove : compare buffer.extent other.extent ≠ .lt) :
    other.Eligible requested usage := by
  rw [not_below_iff] at fromRequest notAbove
  have element := eligible.element
  simp only [extent] at fromRequest notAbove
  rw [element] at notAbove
  have sameElement : other.element = requested.element := by
    rcases fromRequest with higher | ⟨same, _⟩
    · rcases notAbove with lower | ⟨same, _⟩
      · omega
      · exact same.symm
    · exact same
  have longEnough : requested.length ≤ other.length := by simpa [sameElement] using fromRequest
  have noLonger : other.length ≤ buffer.length := by simpa [sameElement] using notAbove
  exact ⟨sameElement, longEnough, eligible.modest.imp_right fun modest => noLonger.trans modest⟩

/-! ## The candidate -/

variable {shelf : Pool.Shelf Buffer}

theorem serves_iff (roomy : shelf.roomy = decide (2 * usage.used.toNat ≤ usage.limit.toNat)) :
    Recyclable.serves Buffer requested buffer.extent shelf.roomy = true ↔ buffer.Eligible requested usage := by
  rw [roomy]
  simp only [Recyclable.serves, Bool.and_eq_true, Bool.or_eq_true, beq_iff_eq, decide_eq_true_eq]
  constructor
  · rintro ⟨⟨element, longEnough⟩, modest⟩
    exact ⟨element, longEnough, modest⟩
  · rintro ⟨element, longEnough, modest⟩
    exact ⟨⟨element, longEnough⟩, modest⟩

/-- What serves a request is eligible, and the shortest that is. -/
theorem shortest_of_serving (roomy : shelf.roomy = decide (2 * usage.used.toNat ≤ usage.limit.toNat)) {shape : Extent}
    (serving : shelf.serving? .atLeast requested = some shape) :
    ∃ buffer : Buffer, buffer.extent = shape ∧ buffer.Shortest requested usage shelf.items := by
  have least := least_from_is_least requested (shelf.items.map Recyclable.shape)
  obtain ⟨candidate, isCandidate, served⟩ := Option.bind_eq_some_iff.mp serving
  rw [isCandidate] at least
  obtain ⟨member, fromRequest, others⟩ := least
  obtain ⟨buffer, resident, rfl⟩ := List.mem_map.mp member
  split at served
  · rename_i serves
    cases served
    have eligible : buffer.Eligible requested usage := (serves_iff roomy).mp serves
    refine ⟨buffer, rfl, resident, eligible, ?_⟩
    intro other isOther eligible'
    apply (eligible.not_below_of_eligible eligible').mp
    exact others _ (List.mem_map_of_mem isOther) eligible'.not_below
  · cases served

/-- The candidate serves as soon as any resident buffer is eligible. -/
theorem serving_of_eligible (roomy : shelf.roomy = decide (2 * usage.used.toNat ≤ usage.limit.toNat))
    (resident : buffer ∈ shelf.items) (eligible : buffer.Eligible requested usage) :
    ∃ shape, shelf.serving? .atLeast requested = some shape := by
  have least := least_from_is_least requested (shelf.items.map Recyclable.shape)
  cases isCandidate : Pool.Shelf.leastFrom? requested (shelf.items.map Recyclable.shape) with
  | none =>
      rw [isCandidate] at least
      exact absurd (least _ (List.mem_map_of_mem resident)) eligible.not_below
  | some candidate =>
      rw [isCandidate] at least
      obtain ⟨member, fromRequest, others⟩ := least
      obtain ⟨other, isOther, rfl⟩ := List.mem_map.mp member
      have between := others _ (List.mem_map_of_mem resident) eligible.not_below
      have serves := (serves_iff roomy).mpr (eligible.of_between fromRequest between)
      refine ⟨other.extent, ?_⟩
      simp only [Pool.Shelf.serving?, isCandidate, Option.bind_eq_bind, Option.bind_some]
      exact if_pos serves

theorem serving_eq_some_iff (roomy : shelf.roomy = decide (2 * usage.used.toNat ≤ usage.limit.toNat)) (shape : Extent) :
    shelf.serving? .atLeast requested = some shape ↔
      ∃ buffer : Buffer, buffer.extent = shape ∧ buffer.Shortest requested usage shelf.items := by
  constructor
  · exact shortest_of_serving roomy
  · rintro ⟨buffer, rfl, shortest⟩
    obtain ⟨shape, serving⟩ := serving_of_eligible roomy shortest.resident shortest.eligible
    obtain ⟨other, rfl, shortest'⟩ := shortest_of_serving roomy serving
    have lengths : other.length = buffer.length := Nat.le_antisymm
      (shortest'.least _ shortest.resident shortest.eligible) (shortest.least _ shortest'.resident shortest'.eligible)
    have elements : other.element = buffer.element := shortest'.eligible.element.trans shortest.eligible.element.symm
    rw [serving, extent, extent, lengths, elements]

/-! ## What is taken -/

/-- Of the shortest eligible buffers the one that was put last leaves the list, and it is handed out. -/
structure FitsBest (requested : Extent) (usage : Usage) (items left : List Buffer) (buffer : Buffer) : Prop where
  shortest : buffer.Shortest requested usage items
  latest : ∃ fresher colder, items = fresher ++ buffer :: colder ∧ left = fresher ++ colder ∧
    ∀ other ∈ fresher, other.Eligible requested usage → buffer.length < other.length

variable (roomy : shelf.roomy = decide (2 * usage.used.toNat ≤ usage.limit.toNat))

include roomy in
theorem take_fits_best (requested : Extent) :
    (∃ buffer shelf', shelf.take .atLeast requested = (some buffer, shelf') ∧
      buffer.FitsBest requested usage shelf.items shelf'.items) ∨
    (∀ buffer ∈ shelf.items, ¬ buffer.Eligible requested usage) ∧
      ∃ shelf', shelf.take .atLeast requested = (none, shelf') := by
  rcases shelf.take_cases .atLeast requested with
    ⟨fresher, buffer, colder, parted, freshest, serving, taken⟩ | ⟨missing, missed⟩
  · left
    obtain ⟨other, sameExtent, shortest⟩ := shortest_of_serving roomy serving
    have sameElement : other.element = buffer.element := congrArg Extent.element sameExtent
    have sameLength : other.length = buffer.length := congrArg Extent.length sameExtent
    have eligible : buffer.Eligible requested usage :=
      ⟨sameElement ▸ shortest.eligible.element, sameLength ▸ shortest.eligible.longEnough,
        sameLength ▸ shortest.eligible.modest⟩
    have resident : buffer ∈ shelf.items := by simp [parted]
    have least : ∀ rival ∈ shelf.items, rival.Eligible requested usage → buffer.length ≤ rival.length :=
      sameLength ▸ shortest.least
    refine ⟨buffer, _, taken, ⟨resident, eligible, least⟩, fresher, colder, parted, rfl, ?_⟩
    intro rival isFresher eligible'
    have atMost : buffer.length ≤ rival.length := least rival (by simp [parted, isFresher]) eligible'
    apply Nat.lt_of_le_of_ne atMost
    intro sameLength'
    apply freshest rival isFresher
    show rival.extent = buffer.extent
    rw [extent, extent, eligible'.element, eligible.element, sameLength']
  · right
    refine ⟨?_, _, missed⟩
    intro buffer resident eligible
    obtain ⟨shape, serving⟩ := serving_of_eligible roomy resident eligible
    obtain ⟨other, rfl, shortest⟩ := shortest_of_serving roomy serving
    exact missing other shortest.resident serving

omit roomy in
/-- Nothing but the eligible buffers, and thus the requested kind, counts. -/
theorem shortest_iff_of_kind (items : List Buffer) :
    buffer.Shortest requested usage items ↔
      buffer.Shortest requested usage (items.filter (·.element = requested.element)) := by
  constructor
  · rintro ⟨resident, eligible, least⟩
    refine ⟨by simp [resident, eligible.element], eligible, ?_⟩
    intro other isOther
    exact least other (List.mem_of_mem_filter isOther)
  · rintro ⟨resident, eligible, least⟩
    refine ⟨List.mem_of_mem_filter resident, eligible, ?_⟩
    intro other isOther eligible'
    exact least other (by simp [isOther, eligible'.element]) eligible'

include roomy in
/-- A lookup does to the buffers of the requested kind what it would do if they were alone. -/
theorem take_of_kind (requested : Extent) :
    (shelf.take .atLeast requested).1 = (shelf.items.filter (·.element = requested.element)).find?
        (fun buffer => shelf.serving? .atLeast requested == some buffer.extent) ∧
      (shelf.take .atLeast requested).2.items.filter (·.element = requested.element) =
        (shelf.items.filter (·.element = requested.element)).eraseP
          (fun buffer => shelf.serving? .atLeast requested == some buffer.extent) := by
  have ofKind : ∀ buffer : Buffer, shelf.serving? .atLeast requested = some buffer.extent →
      buffer.element = requested.element := by
    intro buffer serving
    obtain ⟨other, sameExtent, shortest⟩ := shortest_of_serving roomy serving
    exact (congrArg Extent.element sameExtent).symm.trans shortest.eligible.element
  constructor
  · rw [Pool.Shelf.take_found, List.find?_filter]
    apply congrArg (List.find? · shelf.items)
    funext buffer
    apply Bool.eq_iff_iff.mpr
    simpa [Recyclable.shape] using ofKind buffer
  · rw [Pool.Shelf.take_left, List.eraseP_filter]
    apply congrArg fun gone => (shelf.items.eraseP gone).filter (·.element = requested.element)
    funext buffer
    apply Bool.eq_iff_iff.mpr
    simpa [Recyclable.shape] using ofKind buffer

include roomy in
theorem take_ignores_other_kind {shelf' : Pool.Shelf Buffer}
    (roomy' : shelf'.roomy = decide (2 * usage.used.toNat ≤ usage.limit.toNat))
    (sameKind : shelf'.items.filter (·.element = requested.element) =
      shelf.items.filter (·.element = requested.element)) :
    (shelf'.take .atLeast requested).1 = (shelf.take .atLeast requested).1 ∧
      (shelf'.take .atLeast requested).2.items.filter (·.element = requested.element) =
        (shelf.take .atLeast requested).2.items.filter (·.element = requested.element) := by
  have serving : shelf'.serving? .atLeast requested = shelf.serving? .atLeast requested := by
    apply Option.ext
    intro shape
    rw [serving_eq_some_iff roomy, serving_eq_some_iff roomy']
    simp only [shortest_iff_of_kind shelf.items, shortest_iff_of_kind shelf'.items, sameKind]
  obtain ⟨found, left⟩ := take_of_kind roomy requested
  obtain ⟨found', left'⟩ := take_of_kind roomy' requested
  rw [found, found', left, left', serving, sameKind]
  trivial

end Buffer

namespace Pool

open Stock Buffer

variable {settings : Settings} {care : Care} {requested : Extent} {stock stock' : Stock Buffer Extent}

theorem Stock.Coherent.roomy_usage (coherent : Coherent stock) :
    stock.shelf.roomy = decide (2 * stock.store.usage.used.toNat ≤ stock.store.usage.limit.toNat) := by
  rw [← coherent.roomy_eq, Budget.roomy_eq]
  rfl

theorem inexact_matching (loose : settings.matching = .atLeast) (inexact : care ≠ .exact) :
    care.matching settings = .atLeast := by
  rw [Care.matching, if_neg inexact, loose]

/-- A lookup hands out the buffer that fits best, and asks for a new one if none is eligible. -/
theorem Stock.Coherent.lookup_fits_best (coherent : Coherent stock) (matching : care.matching settings = .atLeast)
    (requested : Extent) :
    (∃ buffer, (start settings (.lookup care requested) stock).1 = .replied (care.hand buffer : Buffer) ∧
      buffer.FitsBest requested stock.store.usage stock.items
        (start settings (.lookup care requested) stock).2.items) ∨
    (∀ buffer ∈ stock.items, ¬ buffer.Eligible requested stock.store.usage) ∧
      (start settings (.lookup care requested) stock).1 = .waiting (.making care requested) := by
  obtain ⟨outcome, state, _⟩ := coherent.lookup_follows settings care requested
  have left : (start settings (.lookup care requested) stock).2.items = _ := congrArg Shelf.items state
  rw [outcome, left, Shelf.start_lookup, matching]
  rcases take_fits_best coherent.roomy_usage requested with
    ⟨buffer, shelf', taken, fitsBest⟩ | ⟨notEligible, shelf', missed⟩
  · rw [taken]
    exact Or.inl ⟨buffer, rfl, fitsBest⟩
  · rw [missed]
    exact Or.inr ⟨notEligible, rfl⟩

theorem Stock.Coherent.lookup_ignores_other_kind (coherent : Coherent stock) (coherent' : Coherent stock')
    (matching : care.matching settings = .atLeast) (sameUse : stock'.store.used = stock.store.used)
    (sameLimit : stock'.store.limit = stock.store.limit)
    (sameKind : stock'.items.filter (·.element = requested.element) =
      stock.items.filter (·.element = requested.element)) :
    (start settings (.lookup care requested) stock').1 = (start settings (.lookup care requested) stock).1 ∧
      (start settings (.lookup care requested) stock').2.items.filter (·.element = requested.element) =
        (start settings (.lookup care requested) stock).2.items.filter (·.element = requested.element) := by
  have roomy' : stock'.shelf.roomy =
      decide (2 * stock.store.usage.used.toNat ≤ stock.store.usage.limit.toNat) := by
    rw [coherent'.roomy_usage, Lru.usage, Lru.usage, sameUse, sameLimit]
  obtain ⟨taken, left⟩ := take_ignores_other_kind coherent.roomy_usage roomy' sameKind
  obtain ⟨outcome, state, _⟩ := coherent.lookup_follows settings care requested
  obtain ⟨outcome', state', _⟩ := coherent'.lookup_follows settings care requested
  have items : (start settings (.lookup care requested) stock).2.items = _ := congrArg Shelf.items state
  have items' : (start settings (.lookup care requested) stock').2.items = _ := congrArg Shelf.items state'
  rw [outcome, outcome', items, items', Shelf.start_lookup, Shelf.start_lookup, matching, taken, left]
  exact ⟨rfl, rfl⟩

/-- In every reachable state a loose lookup that is not exact hands out a buffer if and only if one is eligible, and
then the shortest one that was put last; a buffer of the requested extent is always used. Buffers of the other kind
matter only by how much of the limit they use. -/
theorem loose_lookup_fits_best (settings : Settings) (loose : settings.matching = .atLeast)
    (reached : (service settings).Reaches (Stock.ofLimit settings.limit) stock) (care : Care) (inexact : care ≠ .exact)
    (requested : Extent) :
    let usage := stock.store.usage
    let outcome := (service settings).start (.lookup care requested) stock
    ((∃ handed : Buffer, outcome.1 = .replied handed) ↔ ∃ buffer ∈ stock.items, buffer.Eligible requested usage) ∧
    ((∀ buffer ∈ stock.items, ¬ buffer.Eligible requested usage) → outcome.1 = .waiting (.making care requested)) ∧
    (∀ handed : Buffer, outcome.1 = .replied handed → ∃ buffer, handed = care.hand buffer ∧
      buffer.FitsBest requested usage stock.items outcome.2.items) ∧
    ((∃ buffer ∈ stock.items, buffer.extent = requested) →
      ∃ handed : Buffer, outcome.1 = .replied handed ∧ handed.extent = requested) ∧
    ∀ stock', (service settings).Reaches (Stock.ofLimit settings.limit) stock' →
      stock'.store.used = stock.store.used → stock'.store.limit = stock.store.limit →
      stock'.items.filter (·.element = requested.element) = stock.items.filter (·.element = requested.element) →
      let outcome' := (service settings).start (.lookup care requested) stock'
      outcome'.1 = outcome.1 ∧ outcome'.2.items.filter (·.element = requested.element) =
        outcome.2.items.filter (·.element = requested.element) := by
  intro usage outcome
  have coherent : Coherent stock := .of_reached reached
  have matching := inexact_matching loose inexact
  have ignores : ∀ stock', (service settings).Reaches (Stock.ofLimit settings.limit) stock' →
      stock'.store.used = stock.store.used → stock'.store.limit = stock.store.limit →
      stock'.items.filter (·.element = requested.element) = stock.items.filter (·.element = requested.element) → _ :=
    fun stock' reached' => coherent.lookup_ignores_other_kind (.of_reached reached') matching
  rcases coherent.lookup_fits_best matching requested with ⟨buffer, hit, fitsBest⟩ | ⟨notEligible, miss⟩
  · have eligible := fitsBest.shortest.eligible
    have resident := fitsBest.shortest.resident
    refine ⟨⟨fun _ => ⟨buffer, resident, eligible⟩, fun _ => ⟨_, hit⟩⟩, ?_, ?_, ?_, ignores⟩
    · intro notEligible
      exact absurd eligible (notEligible buffer resident)
    · intro handed replied
      cases hit.symm.trans replied
      exact ⟨buffer, rfl, fitsBest⟩
    · rintro ⟨other, isOther, rfl⟩
      refine ⟨_, hit, (hand_extent care buffer).trans ?_⟩
      have noLonger := fitsBest.shortest.least other isOther (eligible_of_extent usage other)
      have sameLength : buffer.length = other.length := Nat.le_antisymm noLonger eligible.longEnough
      rw [extent, eligible.element, sameLength]
      rfl
  · refine ⟨⟨?_, ?_⟩, fun _ => miss, ?_, ?_, ignores⟩
    · rintro ⟨handed, replied⟩
      cases miss.symm.trans replied
    · rintro ⟨buffer, resident, eligible⟩
      exact absurd eligible (notEligible buffer resident)
    · intro handed replied
      cases miss.symm.trans replied
    · rintro ⟨other, isOther, rfl⟩
      exact absurd (eligible_of_extent usage other) (notEligible other isOther)

/-- With eighty of a hundred bytes in use, a request for two bytes is served by the later one of the two buffers of ten,
and no buffer serves a request for one byte. -/
theorem later_of_two_short_buffers_is_handed_out :
    let settings := Buffer.poolSettings 100
    let older : Buffer := .bytes (Array.replicate 10 1)
    let later : Buffer := .bytes (Array.replicate 10 2)
    let two : Extent := ⟨.byte, 2⟩
    let one : Extent := ⟨.byte, 1⟩
    let script : Script (protocol Buffer Extent) Unit Unit :=
      .call (.put (Buffer.zeroed ⟨.int, 10⟩)) fun _ =>
      .call (.put older) fun _ =>
      .call (.put later) fun _ =>
      .call (.put (Buffer.zeroed ⟨.byte, 20⟩)) fun _ =>
      .done ()
    let opening : Moment (service settings) Unit Unit := .opening script () (Stock.ofLimit settings.limit)
    let stock := (opening.advance Buffer.supplier.client 8).2.state
    ((service settings).start (.lookup .dirty two) stock).1 = .replied later ∧
      ((service settings).start (.lookup .dirty one) stock).1 = .waiting (.making .dirty one) := by
  intro settings older later two one script opening stock
  have reached : (service settings).Reaches (Stock.ofLimit settings.limit) stock :=
    ⟨Unit, Unit, Buffer.supplier.client, script, (), 8, rfl⟩
  have shelved : stock.shelf = {
      base := 100
      limit := 100
      items := [Buffer.zeroed ⟨.byte, 20⟩, later, older, Buffer.zeroed ⟨.int, 10⟩]
      tally := { hits := 0, misses := 0, puts := 4, evictions := 0 } } :=
    (congrArg (·.2.state) ((shelving_mirrors settings).advance Buffer.supplier.client 8 opening
      (of_limit_coherent settings.limit))).symm
  clear_value stock
  have items : stock.items = [Buffer.zeroed ⟨.byte, 20⟩, later, older, Buffer.zeroed ⟨.int, 10⟩] :=
    congrArg Shelf.items shelved
  have usage : stock.store.usage = { limit := 100, used := 80, count := 4 } := by
    rw [(Coherent.of_reached reached).usage_eq, shelved]
    rfl
  constructor
  · have eligible : later.Eligible two stock.store.usage := ⟨rfl, by decide, Or.inr (by decide)⟩
    obtain ⟨recycles, _, fitsBest, _⟩ := loose_lookup_fits_best settings rfl reached .dirty nofun two
    obtain ⟨handed, hit⟩ := recycles.mpr ⟨later, by simp [items], eligible⟩
    obtain ⟨buffer, same, shortest, fresher, colder, parted, _, strictly⟩ := fitsBest handed hit
    have atMost : buffer.length ≤ 10 := shortest.least later (by simp [items]) eligible
    have atLeast : 10 ≤ buffer.length := by
      have all : ∀ other ∈ stock.items, 10 ≤ other.length := by
        rw [items]
        decide
      exact all buffer shortest.resident
    rw [items] at parted
    -- The buffer of twenty comes first; were the later one of ten to come before the buffer as well, it would be shorter.
    rcases fresher with _ | ⟨first, _ | ⟨second, rest⟩⟩
    · cases parted
      exact absurd atMost (by decide)
    · cases parted
      exact hit.trans (congrArg _ same)
    · obtain rfl : later = second := by simp_all
      have shorter : buffer.length < 10 := strictly later (by simp) eligible
      omega
  · obtain ⟨_, makes, _⟩ := loose_lookup_fits_best settings rfl reached .dirty nofun one
    apply makes
    rw [items, usage]
    decide

end Pool

end MemoryBudget
