import MemoryBudget.Proofs.Cache.Soundness
import MemoryBudget.Proofs.Lru.Trimming

/-!
# Integrity of the slots

Whatever was done to a store, its slots make up two lists that share none. Following the colder links from the freshest
slot meets every occupied slot once and ends at the coldest, following the fresher links from there meets them the
other way round, and following the vacancies meets every other slot once. The index names exactly the occupied slots.
A new slot is only made when all others are occupied, so there are as many as there ever were entries at once.
-/

set_option autoImplicit false

namespace MemoryBudget

namespace Arena

variable {κ α : Type}

def occupant? (arena : Arena κ α) (slot : Nat) : Option (Node κ α) :=
  match arena.slots[slot]? with
  | some (.occupied node) => some node
  | _ => none

def colder? (arena : Arena κ α) (slot : Nat) : Option (Option Nat) := (arena.occupant? slot).map (·.colder)

def fresher? (arena : Arena κ α) (slot : Nat) : Option (Option Nat) := (arena.occupant? slot).map (·.fresher)

def vacant? (arena : Arena κ α) (slot : Nat) : Option (Option Nat) :=
  match arena.slots[slot]? with
  | some (.vacant next) => some next
  | _ => none

/-- Following the links from `start` meets exactly these slots, in this order, and comes to an end. -/
def Follows (link? : Nat → Option (Option Nat)) (start : Option Nat) : List Nat → Prop
  | [] => start = none
  | slot :: rest => start = some slot ∧ ∃ next, link? slot = some next ∧ Follows link? next rest

/-- The slots of an arena are those of a list, linked both ways, and those of a chain of vacancies. -/
structure Whole (arena : Arena κ α) (path vacancies : List Nat) : Prop where
  colder : Follows arena.colder? arena.freshest path
  fresher : Follows arena.fresher? arena.coldest path.reverse
  first : arena.freshest = path.head?
  last : arena.coldest = path.getLast?
  occupied : ∀ slot, slot ∈ path ↔ (arena.occupant? slot).isSome
  once : path.Nodup
  nothingFresh : arena.freshest = none ↔ ∀ slot, arena.occupant? slot = none
  nothingCold : arena.coldest = none ↔ ∀ slot, arena.occupant? slot = none
  chained : Follows arena.vacant? arena.vacancy vacancies
  vacant : ∀ slot, slot ∈ vacancies ↔ (arena.vacant? slot).isSome
  vacantOnce : vacancies.Nodup

theorem occupant_eq_some {arena : Arena κ α} {slot : Nat} {node : Node κ α} :
    arena.occupant? slot = some node ↔ arena.slots[slot]? = some (.occupied node) := by
  rw [occupant?]
  split <;> simp_all

theorem vacant_eq_some {arena : Arena κ α} {slot : Nat} {next : Option Nat} :
    arena.vacant? slot = some next ↔ arena.slots[slot]? = some (.vacant next) := by
  rw [vacant?]
  split <;> simp_all

theorem follows_colder {arena : Arena κ α} {before : Option Nat} {path : List (Place κ α)}
    (linked : Segment arena.slots before path none) :
    Follows arena.colder? (firstSlot none path) (slotsOf path) := by
  induction path generalizing before with
  | nil => rfl
  | cons place rest ih =>
      refine ⟨rfl, firstSlot none rest, ?_, ih linked.2⟩
      rw [colder?, occupant_eq_some.mpr linked.1]
      rfl

/-- Each place is linked to the one before it, so the path is met from its end on. -/
theorem follows_fresher {arena : Arena κ α} {after : Option Nat} {path : List (Place κ α)}
    (linked : Segment arena.slots none path after) :
    Follows arena.fresher? (lastSlot none path) (slotsOf path).reverse := by
  induction path using List.reverseRecOn generalizing after with
  | nil => rfl
  | append_singleton path last ih =>
      obtain ⟨fresher, occupied, _⟩ := (segment_append _ _ _ _ _).mp linked
      rw [slots_of_append, last_slot_append, List.reverse_append]
      refine ⟨rfl, lastSlot none path, ?_, ih fresher⟩
      rw [fresher?, occupant_eq_some.mpr occupied]
      rfl

theorem follows_vacancies {arena : Arena κ α} {link : Option Nat} {vacancies : List Nat}
    (chained : VacancyChain arena.slots link vacancies) : Follows arena.vacant? link vacancies := by
  induction vacancies generalizing link with
  | nil => exact chained
  | cons slot rest ih =>
      obtain ⟨found, next, vacant, chained⟩ := chained
      exact ⟨found, next, vacant_eq_some.mpr vacant, ih chained⟩

theorem first_slot_head (path : List (Place κ α)) : firstSlot none path = (slotsOf path).head? := by
  cases path <;> rfl

theorem last_slot_last (path : List (Place κ α)) : lastSlot none path = (slotsOf path).getLast? := by
  rcases path.eq_nil_or_concat with rfl | ⟨init, place, rfl⟩
  · rfl
  · simp [lastSlot]

/-- As many different slots as there are, are all of them. -/
theorem Laid.everywhere {arena : Arena κ α} {path : List (Place κ α)} {vacancies : List Nat}
    (laid : Laid arena path vacancies) {slot : Nat} (present : slot < arena.slots.size) :
    slot ∈ slotsOf path ∨ slot ∈ vacancies := by
  have distinct : (slotsOf path ++ vacancies).Nodup :=
    List.nodup_append.mpr ⟨laid.linked.distinct, laid.distinctVacancies, fun one onPath other among same =>
      laid.path_off_vacancies onPath (same ▸ among)⟩
  have inRange : slotsOf path ++ vacancies ⊆ List.range arena.slots.size := by
    intro other member
    rw [List.mem_range]
    rcases List.mem_append.mp member with onPath | among
    · obtain ⟨place, inPath, rfl⟩ := List.mem_map.mp onPath
      obtain ⟨node, occupied, _⟩ := segment_slot_occupied laid.linked.segment inPath
      exact (Array.getElem?_eq_some_iff.mp occupied).1
    · obtain ⟨next, vacant⟩ := vacancy_is_vacant laid.chained among
      exact (Array.getElem?_eq_some_iff.mp vacant).1
  have asMany : (List.range arena.slots.size).length ≤ (slotsOf path ++ vacancies).length := by
    rw [List.length_range, List.length_append, slotsOf, List.length_map, laid.covered]
  have all := (List.subperm_of_subset distinct inRange).perm_of_length_le asMany
  exact List.mem_append.mp (all.mem_iff.mpr (List.mem_range.mpr present))

theorem Laid.on_path_iff {arena : Arena κ α} {path : List (Place κ α)} {vacancies : List Nat}
    (laid : Laid arena path vacancies) (slot : Nat) : slot ∈ slotsOf path ↔ (arena.occupant? slot).isSome := by
  constructor
  · intro onPath
    obtain ⟨place, inPath, rfl⟩ := List.mem_map.mp onPath
    obtain ⟨node, occupied, _⟩ := segment_slot_occupied laid.linked.segment inPath
    rw [occupant_eq_some.mpr occupied]
    rfl
  · intro some
    obtain ⟨node, found⟩ := Option.isSome_iff_exists.mp some
    have occupied := occupant_eq_some.mp found
    rcases laid.everywhere (Array.getElem?_eq_some_iff.mp occupied).1 with onPath | among
    · exact onPath
    · obtain ⟨next, vacant⟩ := vacancy_is_vacant laid.chained among
      rw [occupied] at vacant
      cases vacant

theorem Laid.among_vacancies_iff {arena : Arena κ α} {path : List (Place κ α)} {vacancies : List Nat}
    (laid : Laid arena path vacancies) (slot : Nat) : slot ∈ vacancies ↔ (arena.vacant? slot).isSome := by
  constructor
  · intro among
    obtain ⟨next, vacant⟩ := vacancy_is_vacant laid.chained among
    rw [vacant_eq_some.mpr vacant]
    rfl
  · intro some
    obtain ⟨next, found⟩ := Option.isSome_iff_exists.mp some
    have vacant := vacant_eq_some.mp found
    rcases laid.everywhere (Array.getElem?_eq_some_iff.mp vacant).1 with onPath | among
    · exact absurd onPath (vacant_slot_off_path laid.linked.segment vacant)
    · exact among

theorem Laid.whole {arena : Arena κ α} {path : List (Place κ α)} {vacancies : List Nat}
    (laid : Laid arena path vacancies) : Whole arena (slotsOf path) vacancies := by
  have noOccupant : slotsOf path = [] ↔ ∀ slot, arena.occupant? slot = none := by
    rw [List.eq_nil_iff_forall_not_mem]
    refine forall_congr' fun slot => ?_
    rw [laid.on_path_iff, Option.not_isSome_iff_eq_none]
  have first := laid.linked.freshest
  have last := laid.linked.coldest
  refine ⟨?_, ?_, ?_, ?_, laid.on_path_iff, laid.linked.distinct, ?_, ?_, follows_vacancies laid.chained,
    laid.among_vacancies_iff, laid.distinctVacancies⟩
  · rw [first]
    exact follows_colder laid.linked.segment
  · rw [last]
    exact follows_fresher laid.linked.segment
  · rw [first, first_slot_head]
  · rw [last, last_slot_last]
  · rw [first, first_slot_head, List.head?_eq_none_iff, noOccupant]
  · rw [last, last_slot_last, List.getLast?_eq_none_iff, noOccupant]

end Arena

namespace Lru

open Arena RecencyList

variable {κ α : Type} [BEq κ] [Hashable κ]

/-- The most entries that a store holds at once, from now on to the end of these operations. -/
def peak (store : Lru κ α) : List (Operation κ α) → Nat
  | [] => store.count
  | operation :: rest => max store.count ((store.perform operation).2.peak rest)

theorem count_le_peak (store : Lru κ α) (operations : List (Operation κ α)) : store.count ≤ store.peak operations := by
  cases operations with
  | nil => exact Nat.le_refl _
  | cons operation rest => exact Nat.le_max_left _ _

variable [EquivBEq κ] [LawfulHashable κ]

omit [LawfulHashable κ] in
/-- The index has a key at a slot just if an entry under that key is there. -/
theorem Represents.index_iff {store : Lru κ α} {path : List (Place κ α)} {vacancies : List Nat}
    (represents : Represents store path vacancies) (key : κ) (slot : Nat) :
    store.index[key]? = some slot ↔
      ∃ node, store.arena.occupant? slot = some node ∧ (node.entry.key == key) = true := by
  constructor
  · intro found
    obtain ⟨fresher, place, colder, rfl, rfl, sameKey⟩ := represents.split_at found
    obtain ⟨node, occupied, same⟩ :=
      segment_slot_occupied represents.laid.linked.segment (show place ∈ fresher ++ place :: colder by simp)
    exact ⟨node, occupant_eq_some.mpr occupied, by rw [same]; exact sameKey⟩
  · rintro ⟨node, found, sameKey⟩
    have onPath : slot ∈ slotsOf path := (represents.laid.on_path_iff slot).mpr (by rw [found]; rfl)
    obtain ⟨place, inPath, rfl⟩ := List.mem_map.mp onPath
    obtain ⟨node', occupied, same⟩ := segment_slot_occupied represents.laid.linked.segment inPath
    rw [occupant_eq_some.mpr occupied] at found
    cases found
    obtain ⟨fresher, colder, rfl⟩ := List.append_of_mem inPath
    rw [same] at sameKey
    exact represents.slot_of_key sameKey

/-! ## How many slots there are -/

omit [EquivBEq κ] [LawfulHashable κ] in
theorem Represents.same_slots {store store' : Lru κ α} {path path' : List (Place κ α)} {vacancies vacancies' : List Nat}
    (represents : Represents store path vacancies) (represents' : Represents store' path' vacancies')
    (asMany : path'.length + vacancies'.length = path.length + vacancies.length) :
    store'.arena.slots.size = store.arena.slots.size := by
  rw [← represents.laid.covered, ← represents'.laid.covered, asMany]

/-- Each eviction turns an occupied slot into a vacant one. -/
theorem Unlinks.slots_kept {store store' : Lru κ α} {moments : List (Entry κ α × Lru κ α)}
    (unlinks : Unlinks store moments store') {path : List (Place κ α)} {vacancies : List Nat}
    (represents : Represents store path vacancies) : store'.arena.slots.size = store.arena.slots.size := by
  induction unlinks generalizing path vacancies with
  | nothing store => rfl
  | @coldest store between _ slot entry moments coldest first later ih =>
      obtain ⟨before, last, rfl, rfl, represents'⟩ := represents.evicts_last coldest first
      have kept := represents.same_slots represents' (by
        simp only [List.length_append, List.length_cons, List.length_nil]
        omega)
      exact (ih represents').trans kept

theorem Represents.trim_keeps_slots {store : Lru κ α} {path : List (Place κ α)} {vacancies : List Nat}
    (represents : Represents store path vacancies) (target : UInt64) :
    (store.trimTo target).2.arena.slots.size = store.arena.slots.size := by
  obtain ⟨moments, store', success, unlinks⟩ := represents.shed_unlinks target _ represents.path_length_le
  rw [trimTo, trimTo?, success]
  exact unlinks.slots_kept represents

variable {store : Lru κ α}

theorem Intact.clear_keeps_slots (intact : Intact store) : store.clear.2.arena.slots.size = store.arena.slots.size := by
  obtain ⟨path, vacancies, represents⟩ := intact.represented
  obtain ⟨moments, unlinks, _⟩ := intact.clear_in_turn
  exact unlinks.slots_kept represents

omit [LawfulHashable κ] in
theorem Intact.get_keeps_slots (intact : Intact store) (key : κ) :
    (store.get key).2.arena.slots.size = store.arena.slots.size := by
  obtain ⟨path, vacancies, represents⟩ := intact.represented
  cases slotFound : store.index[key]? with
  | none => rw [get, touch?, slotFound]
  | some slot =>
      obtain ⟨fresher, place, colder, rfl, rfl, found⟩ := represents.split_at slotFound
      obtain ⟨store', success, represents', _⟩ := represents.touch found
      rw [get, success]
      apply represents.same_slots represents'
      simp only [List.length_append, List.length_cons]
      omega

theorem Intact.remove_keeps_slots (intact : Intact store) (key : κ) :
    (store.remove key).2.arena.slots.size = store.arena.slots.size := by
  obtain ⟨path, vacancies, represents⟩ := intact.represented
  cases slotFound : store.index[key]? with
  | none => rw [remove, remove?, slotFound]
  | some slot =>
      obtain ⟨fresher, place, colder, rfl, rfl, found⟩ := represents.split_at slotFound
      obtain ⟨store', success, represents', _⟩ := represents.remove found
      rw [remove, success]
      apply represents.same_slots represents'
      simp only [List.length_append, List.length_cons]
      omega

omit [EquivBEq κ] [LawfulHashable κ] in
theorem Intact.count_le_slots (intact : Intact store) : store.count ≤ store.arena.slots.size := by
  obtain ⟨path, vacancies, represents⟩ := intact.represented
  rw [show store.count = path.length from represents.counted]
  exact represents.path_length_le

/-- There is a new slot only if every slot is occupied afterwards. -/
theorem Intact.slots_after_insert (intact : Intact store) (entry : Entry κ α) :
    (store.insert entry).2.arena.slots.size = max store.arena.slots.size (store.insert entry).2.count := by
  by_cases tooCostly : store.limit ≤ entry.cost
  · rw [insert, insert?, if_pos (show store.budget.limit ≤ entry.cost from tooCostly)]
    exact (Nat.max_eq_left intact.count_le_slots).symm
  · have inserted := (intact.insert_agrees entry).intact.exact_count
    have cleared := intact.remove_agrees entry.key
    have emptied := cleared.intact.trim_agrees (store.limit - entry.cost)
    obtain ⟨slot, arena, budget, occupied, _, placed⟩ := intact.insert_in_stages tooCostly
    obtain ⟨_, _, clearedRepresents⟩ := cleared.intact.represented
    obtain ⟨path, vacancies, represents⟩ := emptied.intact.represented
    obtain ⟨_, _, success, laid⟩ := represents.laid.occupy entry
    rw [occupied] at success
    cases success
    have kept : (trimTo _ _).2.arena.slots.size = store.arena.slots.size :=
      (clearedRepresents.trim_keeps_slots (store.limit - entry.cost)).trans (intact.remove_keeps_slots entry.key)
    have covered := represents.laid.covered
    have covered' := laid.covered
    rw [placed] at inserted ⊢
    rw [inserted, Lru.entries, laid.entries, List.length_map]
    rw [kept] at covered
    show arena.slots.size = _
    -- Without a vacancy every slot is occupied, and there is one more; else the entry takes the first vacancy.
    cases vacancies with
    | nil =>
        simp only [List.length_cons, List.length_nil, List.tail_nil] at covered covered' ⊢
        omega
    | cons first rest =>
        simp only [List.length_cons, List.tail_cons] at covered covered' ⊢
        omega

/-- One operation, whichever it is, makes a slot only for an entry for which there is none. -/
theorem Intact.slots_after (intact : Intact store) (operation : Operation κ α) :
    (store.perform operation).2.arena.slots.size =
      max store.arena.slots.size (store.perform operation).2.count := by
  have enough := (intact.perform_agrees operation).intact.count_le_slots
  -- Every other operation keeps the slots that there are, and they hold what it leaves.
  suffices kept : (∀ entry, operation ≠ .insert entry) →
      (store.perform operation).2.arena.slots.size = store.arena.slots.size by
    cases operation with
    | insert entry => exact intact.slots_after_insert entry
    | _ => rw [kept nofun] at enough ⊢; exact (Nat.max_eq_left enough).symm
  intro other
  cases operation with
  | insert entry => exact absurd rfl (other entry)
  | get key => exact intact.get_keeps_slots key
  | peek key => rfl
  | contains key => rfl
  | remove key => exact intact.remove_keeps_slots key
  | trimTo target =>
      obtain ⟨path, vacancies, represents⟩ := intact.represented
      exact represents.trim_keeps_slots target
  | clear => exact intact.clear_keeps_slots
  | rescale multiplier =>
      obtain ⟨path, vacancies, represents⟩ := intact.represented
      simp only [perform, rescale, Budget.rescale]
      cases multiplier.validate with
      | error invalid => rfl
      | ok _ => exact (represents.set_limit (scaleSize store.budget.base multiplier)).trim_keeps_slots _

/-- What was made for the most entries at once is still there, and nothing more. -/
theorem Intact.slots_after_run (intact : Intact store) (operations : List (Operation κ α)) :
    (store.run operations).2.arena.slots.size = max store.arena.slots.size (store.peak operations) := by
  induction operations generalizing store with
  | nil => exact (Nat.max_eq_left intact.count_le_slots).symm
  | cons operation rest ih =>
      have step := intact.slots_after operation
      have among := count_le_peak (store.perform operation).2 rest
      have enough := intact.count_le_slots
      have later := ih (intact.perform_agrees operation).intact
      rw [step] at later
      rw [run, peak]
      show ((store.perform operation).2.run rest).2.arena.slots.size = _
      omega

/-- In every store that operations have led to, the slots are those of the list and those of the vacancies, the index
has exactly the keys of the list at their slots, no operation meets a fault, and there are as many slots as the store
has ever had entries at once. -/
theorem slots_are_whole_and_reused (limit : UInt64) (operations : List (Operation κ α)) :
    let store := ((ofLimit limit : Lru κ α).run operations).2
    (∃ path vacancies, store.arena.Whole path vacancies ∧ path.length = store.count) ∧
      (∀ key slot, store.index[key]? = some slot ↔
        ∃ node, store.arena.occupant? slot = some node ∧ (node.entry.key == key) = true) ∧
      Faultless store ∧
      store.arena.slots.size = (ofLimit limit : Lru κ α).peak operations := by
  intro store
  have fresh : Intact (ofLimit limit : Lru κ α) := of_limit_intact limit
  have intact : Intact store := (fresh.run_agrees operations).intact
  obtain ⟨path, vacancies, represents⟩ := intact.represented
  refine ⟨⟨slotsOf path, vacancies, represents.laid.whole, ?_⟩, represents.index_iff, intact.faultless, ?_⟩
  · rw [slotsOf, List.length_map]
    exact represents.counted.symm
  · exact (fresh.slots_after_run operations).trans (Nat.max_eq_right (Nat.zero_le _))

/-- The slot of an entry that was removed is where the next one goes, so that three slots serve four keys. -/
theorem freed_slot_is_filled_again :
    let operations : List (Operation Nat Nat) :=
      [.insert ⟨1, 10, 3⟩, .insert ⟨2, 20, 3⟩, .insert ⟨3, 30, 3⟩, .remove 2, .get 1, .insert ⟨4, 40, 3⟩, .trimTo 6]
    let store := ((ofLimit 10 : Lru Nat Nat).run operations).2
    store.index[4]? = some 1 ∧ (ofLimit 10 : Lru Nat Nat).peak operations = 3 := by
  intro operations store
  obtain ⟨_, indexed, _, size⟩ := slots_are_whole_and_reused 10 operations
  have occupied : ((ofLimit 10 : Lru Nat Nat).run operations).2.arena.occupant? 1 =
      some ⟨⟨4, 40, 3⟩, none, some 0⟩ := by cbv
  have slots : ((ofLimit 10 : Lru Nat Nat).run operations).2.arena.slots.size = 3 := by cbv
  exact ⟨(indexed 4 1).mpr ⟨_, occupied, rfl⟩, size.symm.trans slots⟩

end Lru

end MemoryBudget
