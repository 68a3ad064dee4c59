import MemoryBudget.Proofs.Lru.Links

/-!
# The layout of an arena

Every slot of an arena is on the path of its list or on the chain of its vacancies. The layout says which, and
each operation of the arena is stated as what it does to the two: no operation meets a fault, a slot that is
vacated is the next to be filled, and walking the links finds the path.
-/

set_option autoImplicit false

namespace MemoryBudget

namespace Arena

variable {κ α : Type}

def VacancyChain (slots : Array (Slot κ α)) (link : Option Nat) (vacancies : List Nat) : Prop :=
  match vacancies with
  | [] => link = none
  | slot :: rest =>
      link = some slot ∧ ∃ next, slots[slot]? = some (.vacant next) ∧ VacancyChain slots next rest

theorem vacancy_chain_of_same_slots {slots slots' : Array (Slot κ α)} {link : Option Nat}
    {vacancies : List Nat} (chained : VacancyChain slots link vacancies)
    (same : ∀ slot ∈ vacancies, slots'[slot]? = slots[slot]?) : VacancyChain slots' link vacancies := by
  induction vacancies generalizing link with
  | nil => exact chained
  | cons slot rest ih =>
      obtain ⟨found, next, vacant, chained⟩ := chained
      refine ⟨found, next, ?_, ih chained fun other member => same other (List.mem_cons_of_mem _ member)⟩
      rw [same slot List.mem_cons_self, vacant]

theorem vacancy_is_vacant {slots : Array (Slot κ α)} {link : Option Nat} {vacancies : List Nat}
    (chained : VacancyChain slots link vacancies) {slot : Nat} (member : slot ∈ vacancies) :
    ∃ next, slots[slot]? = some (.vacant next) := by
  induction vacancies generalizing link with
  | nil => cases member
  | cons first rest ih =>
      obtain ⟨_, next, vacant, chained⟩ := chained
      rcases List.mem_cons.mp member with rfl | member
      · exact ⟨next, vacant⟩
      · exact ih chained member

theorem vacant_slot_off_path {slots : Array (Slot κ α)} {before after : Option Nat}
    {path : List (Place κ α)} (linked : Segment slots before path after) {slot : Nat}
    {next : Option Nat} (vacant : slots[slot]? = some (.vacant next)) : slot ∉ slotsOf path := by
  intro member
  obtain ⟨place, inPath, rfl⟩ := List.mem_map.mp member
  obtain ⟨node, occupied, _⟩ := segment_slot_occupied linked inPath
  rw [vacant] at occupied
  cases occupied

/-- The path and the vacancies of an arena, which together are all of its slots. -/
structure Laid (arena : Arena κ α) (path : List (Place κ α)) (vacancies : List Nat) : Prop where
  linked : Linked arena path
  chained : VacancyChain arena.slots arena.vacancy vacancies
  distinctVacancies : vacancies.Nodup
  covered : path.length + vacancies.length = arena.slots.size

theorem Laid.vacancy_off_path {arena : Arena κ α} {path : List (Place κ α)} {vacancies : List Nat}
    (laid : Laid arena path vacancies) {slot : Nat} (member : slot ∈ vacancies) : slot ∉ slotsOf path := by
  obtain ⟨next, vacant⟩ := vacancy_is_vacant laid.chained member
  exact vacant_slot_off_path laid.linked.segment vacant

theorem Laid.path_off_vacancies {arena : Arena κ α} {path : List (Place κ α)} {vacancies : List Nat}
    (laid : Laid arena path vacancies) {slot : Nat} (member : slot ∈ slotsOf path) : slot ∉ vacancies :=
  fun other => laid.vacancy_off_path other member

theorem empty_laid : Laid (empty : Arena κ α) [] [] where
  linked := ⟨trivial, rfl, rfl, List.nodup_nil⟩
  chained := rfl
  distinctVacancies := List.nodup_nil
  covered := rfl

theorem Laid.node_of_place {arena : Arena κ α} {path : List (Place κ α)} {vacancies : List Nat}
    (laid : Laid arena path vacancies) {place : Place κ α} (member : place ∈ path) :
    ∃ node, arena.node? place.slot = .ok node ∧ node.entry = place.entry := by
  obtain ⟨node, occupied, same⟩ := segment_slot_occupied laid.linked.segment member
  exact ⟨node, node_of_occupied occupied, same⟩

/-- Rewiring slots of the path, whatever becomes of their order, leaves the vacancies alone. -/
theorem Laid.rewire {arena arena' : Arena κ α} {path path' : List (Place κ α)} {vacancies touched : List Nat}
    (laid : Laid arena path vacancies) (linked' : Linked arena' path')
    (rewired : Rewired touched arena arena') (inside : touched ⊆ slotsOf path)
    (sameLength : path'.length = path.length) : Laid arena' path' vacancies where
  linked := linked'
  chained := by
    rw [rewired.vacancy]
    apply vacancy_chain_of_same_slots laid.chained
    intro slot member
    exact rewired.elsewhere slot fun other => laid.vacancy_off_path member (inside other)
  distinctVacancies := laid.distinctVacancies
  covered := by rw [sameLength, rewired.size, laid.covered]

/-- Making a slot the freshest moves its place to the front of the path. -/
theorem Laid.promote {arena : Arena κ α} {path rest : List (Place κ α)} {place : Place κ α}
    {vacancies : List Nat} (laid : Laid arena (path ++ place :: rest) vacancies) :
    ∃ arena', arena.promote? place.slot = .ok arena' ∧
      Laid arena' (place :: (path ++ rest)) vacancies := by
  by_cases first : arena.freshest = some place.slot
  · refine ⟨arena, if_pos first, ?_⟩
    cases path with
    | nil => exact laid
    | cons other path =>
        have absent := (distinct_around laid.linked.distinct).1
        have same : other.slot = place.slot := Option.some.inj (laid.linked.freshest.symm.trans first)
        exact absurd (by simp [same]) absent
  · obtain ⟨node, occupied, sameEntry⟩ :=
      segment_slot_occupied laid.linked.segment (show place ∈ path ++ place :: rest by simp)
    obtain ⟨between, success, linked, kept, rewired⟩ := unlink_of_linked laid.linked
    obtain ⟨arena', success', linked', rewired'⟩ := link_freshest_of_linked linked
      (kept.trans occupied) (distinct_around laid.linked.distinct).1
    refine ⟨arena', ?_, laid.rewire ?_ (rewired.trans rewired') ?_ ?_⟩
    · simp only [promote?, if_neg first, bind, Except.bind, success]
      exact success'
    · rw [sameEntry] at linked'
      exact linked'
    · intro slot member
      simp only [slots_of_append, slots_of_cons, List.mem_append, List.mem_cons] at member ⊢
      tauto
    · simp only [List.length_append, List.length_cons]
      omega

/-- Vacating a slot takes its place out of the path and puts it in front of the vacancies. -/
theorem Laid.vacate {arena : Arena κ α} {path rest : List (Place κ α)} {place : Place κ α}
    {vacancies : List Nat} (laid : Laid arena (path ++ place :: rest) vacancies) :
    ∃ arena', arena.vacate? place.slot = .ok (place.entry, arena') ∧
      Laid arena' (path ++ rest) (place.slot :: vacancies) := by
  have absent := (distinct_around laid.linked.distinct).1
  have occupiedSlot : place.slot ∈ slotsOf (path ++ place :: rest) := by simp
  obtain ⟨node, occupied, sameEntry⟩ :=
    segment_slot_occupied laid.linked.segment (show place ∈ path ++ place :: rest by simp)
  obtain ⟨between, success, linked, kept, rewired⟩ := unlink_of_linked laid.linked
  refine ⟨{ between.fill place.slot (.vacant between.vacancy) with vacancy := some place.slot }, ?_,
    ⟨⟨?_, linked.freshest, linked.coldest, linked.distinct⟩, ⟨rfl, between.vacancy, ?_, ?_⟩, ?_, ?_⟩⟩
  · simp only [vacate?, node_of_occupied occupied, bind, Except.bind, success, ← sameEntry]
    rfl
  · apply segment_of_same_slots linked.segment
    intro slot member
    exact fill_other_slot between _ fun same => absent (same ▸ member)
  · exact fill_own_slot (kept.trans occupied) _
  · rw [rewired.vacancy]
    apply vacancy_chain_of_same_slots laid.chained
    intro slot member
    have offPath := laid.vacancy_off_path member
    have different : slot ≠ place.slot := fun same => offPath (same ▸ occupiedSlot)
    refine (fill_other_slot between _ different).trans (rewired.elsewhere slot fun other => offPath ?_)
    simp only [slots_of_append, slots_of_cons, List.mem_append, List.mem_cons] at other ⊢
    tauto
  · exact List.nodup_cons.mpr ⟨laid.path_off_vacancies occupiedSlot, laid.distinctVacancies⟩
  · have sameSize : (between.fill place.slot (.vacant between.vacancy)).slots.size = arena.slots.size :=
      (rewired_fill between _ _).size.trans rewired.size
    have covered := laid.covered
    simp only [List.length_append, List.length_cons] at covered ⊢
    omega

/-- A slot that is free to fill is off the path and, if it was a vacancy, no longer one. -/
theorem Laid.claim {arena : Arena κ α} {path : List (Place κ α)} {vacancies : List Nat}
    (laid : Laid arena path vacancies) :
    ∃ slot arena', arena.claim? = .ok (slot, arena') ∧ Linked arena' path ∧
      (∃ next, arena'.slots[slot]? = some (.vacant next)) ∧ slot ∉ vacancies.tail ∧
      VacancyChain arena'.slots arena'.vacancy vacancies.tail ∧
      path.length + vacancies.tail.length + 1 = arena'.slots.size := by
  cases vacancies with
  | nil =>
      have full : arena.vacancy = none := laid.chained
      refine ⟨arena.slots.size, { arena with slots := arena.slots.push (.vacant none) }, ?_,
        ⟨?_, laid.linked.freshest, laid.linked.coldest, laid.linked.distinct⟩, ⟨none, ?_⟩,
        List.not_mem_nil, full, ?_⟩
      · simp only [claim?, full]
      · apply segment_of_same_slots laid.linked.segment
        intro slot member
        obtain ⟨place, inPath, rfl⟩ := List.mem_map.mp member
        obtain ⟨node, occupied, _⟩ := segment_slot_occupied laid.linked.segment inPath
        obtain ⟨bound, _⟩ := Array.getElem?_eq_some_iff.mp occupied
        rw [Array.getElem?_push, if_neg (Nat.ne_of_lt bound)]
      · simp
      · have covered := laid.covered
        simp only [List.length_nil, Array.size_push, List.tail_nil] at covered ⊢
        omega
  | cons slot rest =>
      obtain ⟨found, next, vacant, chained⟩ := laid.chained
      refine ⟨slot, { arena with vacancy := next }, ?_,
        ⟨laid.linked.segment, laid.linked.freshest, laid.linked.coldest, laid.linked.distinct⟩,
        ⟨next, vacant⟩, (List.nodup_cons.mp laid.distinctVacancies).1, chained, ?_⟩
      · simp only [claim?, found, vacant]
      · have covered := laid.covered
        simp only [List.length_cons, List.tail_cons] at covered ⊢
        omega

/-- A new entry goes to the first vacancy, or to a new slot if there is none, and to the front of the path. -/
theorem Laid.occupy {arena : Arena κ α} {path : List (Place κ α)} {vacancies : List Nat}
    (laid : Laid arena path vacancies) (entry : Entry κ α) :
    ∃ slot arena', arena.occupy? entry = .ok (slot, arena') ∧
      Laid arena' (⟨slot, entry⟩ :: path) vacancies.tail := by
  obtain ⟨slot, between, success, linked, ⟨next, vacant⟩, absent, chained, covered⟩ := laid.claim
  have offPath := vacant_slot_off_path linked.segment vacant
  have filled : Linked (between.fill slot (.occupied ⟨entry, none, none⟩)) path := by
    refine ⟨segment_of_same_slots linked.segment fun other member => ?_, linked.freshest,
      linked.coldest, linked.distinct⟩
    exact fill_other_slot between _ fun same => offPath (same ▸ member)
  obtain ⟨arena', success', linked', rewired⟩ :=
    link_freshest_of_linked filled (fill_own_slot vacant _) offPath
  obtain ⟨size, vacancy, elsewhere⟩ := (rewired_fill between slot _).trans rewired
  refine ⟨slot, arena', ?_, linked', ?_, laid.distinctVacancies.tail, ?_⟩
  · simp only [occupy?, success, bind, Except.bind, success']
    rfl
  · rw [vacancy]
    apply vacancy_chain_of_same_slots chained
    intro other member
    obtain ⟨next, otherVacant⟩ := vacancy_is_vacant chained member
    have different : other ≠ slot := fun same => absent (same ▸ member)
    apply elsewhere
    simp [different, vacant_slot_off_path linked.segment otherVacant]
  · rw [size, ← covered, List.length_cons]
    omega

/-! ## Walking -/

theorem walk_of_segment {arena : Arena κ α} {before : Option Nat} {path : List (Place κ α)}
    (linked : Segment arena.slots before path none) (steps : Nat) (enough : path.length ≤ steps) :
    arena.walk steps (firstSlot none path) = path.map (·.entry) := by
  induction path generalizing before steps with
  | nil => cases steps <;> rfl
  | cons place rest ih =>
      obtain ⟨occupied, linked⟩ := linked
      cases steps with
      | zero => cases enough
      | succ steps =>
          rw [firstSlot, walk, node_of_occupied occupied, List.map_cons]
          exact congrArg (place.entry :: ·) (ih linked steps (Nat.le_of_succ_le_succ enough))

/-- The entries of an arena are those of its path. -/
theorem Laid.entries {arena : Arena κ α} {path : List (Place κ α)} {vacancies : List Nat}
    (laid : Laid arena path vacancies) : arena.entries = path.map (·.entry) := by
  have enough : path.length ≤ arena.slots.size := by
    rw [← laid.covered]
    exact Nat.le_add_right _ _
  rw [Arena.entries, laid.linked.freshest]
  exact walk_of_segment laid.linked.segment _ enough

end Arena

end MemoryBudget
