import MemoryBudget.Lru.Arena
import Mathlib.Data.List.Nodup
import Mathlib.Tactic.Common

/-!
# Links between slots

What an arena holds is described by a path: its entries with their slots, freshest first. A segment is a stretch
of the path whose nodes are linked both ways, with the slots on either side of it left open, so that a slot can
be taken out between two segments and put in front of one. Every relinking is shown to succeed, and slots off
the path are shown to stay as they were.
-/

set_option autoImplicit false

namespace MemoryBudget

namespace Arena

variable {κ α : Type}

structure Place (κ α : Type) where
  slot : Nat
  entry : Entry κ α

def slotsOf (path : List (Place κ α)) : List Nat := path.map (·.slot)

def firstSlot (after : Option Nat) : List (Place κ α) → Option Nat
  | [] => after
  | place :: _ => some place.slot

def lastSlot (before : Option Nat) : List (Place κ α) → Option Nat
  | [] => before
  | place :: rest => lastSlot (some place.slot) rest

@[simp] theorem slots_of_append (path rest : List (Place κ α)) :
    slotsOf (path ++ rest) = slotsOf path ++ slotsOf rest := by
  simp [slotsOf]

@[simp] theorem slots_of_cons (place : Place κ α) (rest : List (Place κ α)) :
    slotsOf (place :: rest) = place.slot :: slotsOf rest := rfl

@[simp] theorem slots_of_nil : slotsOf ([] : List (Place κ α)) = [] := rfl

@[simp] theorem first_slot_append (after : Option Nat) (path rest : List (Place κ α)) :
    firstSlot after (path ++ rest) = firstSlot (firstSlot after rest) path := by
  cases path with
  | nil => rfl
  | cons place path => rfl

@[simp] theorem last_slot_append (before : Option Nat) (path rest : List (Place κ α)) :
    lastSlot before (path ++ rest) = lastSlot (lastSlot before path) rest := by
  induction path generalizing before with
  | nil => rfl
  | cons place path ih => exact ih (some place.slot)

theorem first_slot_mem (path : List (Place κ α)) (slot : Nat) (first : firstSlot none path = some slot) :
    slot ∈ slotsOf path := by
  cases path with
  | nil => cases first
  | cons place rest =>
      cases first
      exact List.mem_cons_self

/-- What lies before a path is its last slot only if the path is empty. -/
theorem last_slot_or (before : Option Nat) (path : List (Place κ α)) :
    (lastSlot none path).or before = lastSlot before path := by
  rcases path.eq_nil_or_concat with rfl | ⟨init, place, rfl⟩
  · exact Option.none_or
  · simp [lastSlot]

/-- Without its first place a path ends where it ended, unless that place was the last one too. -/
theorem last_slot_without_first (before : Option Nat) (place : Place κ α) (rest : List (Place κ α))
    (absent : place.slot ∉ slotsOf rest) :
    (if lastSlot none (place :: rest) = some place.slot then before else lastSlot none (place :: rest)) =
      lastSlot before rest := by
  rcases rest.eq_nil_or_concat with rfl | ⟨init, last, rfl⟩
  · simp [lastSlot]
  · have different : last.slot ≠ place.slot := by
      intro same
      apply absent
      simp [same]
    simp [lastSlot, different]

/-! ## Segments -/

/-- The nodes of a path are linked both ways: to each other, to `before` on the fresh side and to `after` on the
cold side. -/
def Segment (slots : Array (Slot κ α)) (before : Option Nat) (path : List (Place κ α))
    (after : Option Nat) : Prop :=
  match path with
  | [] => True
  | place :: rest =>
      slots[place.slot]? = some (.occupied ⟨place.entry, before, firstSlot after rest⟩) ∧
        Segment slots (some place.slot) rest after

theorem segment_append (slots : Array (Slot κ α)) (before after : Option Nat)
    (path rest : List (Place κ α)) :
    Segment slots before (path ++ rest) after ↔
      Segment slots before path (firstSlot after rest) ∧
        Segment slots (lastSlot before path) rest after := by
  induction path generalizing before with
  | nil => simp [Segment, lastSlot]
  | cons place path ih =>
      rw [List.cons_append, Segment, Segment, first_slot_append, ih, and_assoc]
      rfl

theorem segment_of_same_slots {slots slots' : Array (Slot κ α)} {before after : Option Nat}
    {path : List (Place κ α)} (linked : Segment slots before path after)
    (same : ∀ slot ∈ slotsOf path, slots'[slot]? = slots[slot]?) :
    Segment slots' before path after := by
  induction path generalizing before with
  | nil => trivial
  | cons place rest ih =>
      refine ⟨?_, ih linked.2 fun slot member => same slot (List.mem_cons_of_mem _ member)⟩
      rw [same place.slot List.mem_cons_self]
      exact linked.1

theorem segment_slot_occupied {slots : Array (Slot κ α)} {before after : Option Nat}
    {path : List (Place κ α)} (linked : Segment slots before path after) {place : Place κ α}
    (member : place ∈ path) :
    ∃ node, slots[place.slot]? = some (.occupied node) ∧ node.entry = place.entry := by
  induction path generalizing before with
  | nil => cases member
  | cons first rest ih =>
      rcases List.mem_cons.mp member with rfl | member
      · exact ⟨_, linked.1, rfl⟩
      · exact ih linked.2 member

/-! ## Checked access -/

theorem node_of_occupied {arena : Arena κ α} {slot : Nat} {node : Node κ α}
    (occupied : arena.slots[slot]? = some (.occupied node)) : arena.node? slot = .ok node := by
  simp only [node?, occupied]

theorem fill_own_slot {arena : Arena κ α} {slot : Nat} {old : Slot κ α}
    (present : arena.slots[slot]? = some old) (content : Slot κ α) :
    (arena.fill slot content).slots[slot]? = some content := by
  obtain ⟨bound, _⟩ := Array.getElem?_eq_some_iff.mp present
  simp [fill, bound]

theorem fill_other_slot (arena : Arena κ α) {slot other : Nat} (content : Slot κ α)
    (different : other ≠ slot) : (arena.fill slot content).slots[other]? = arena.slots[other]? := by
  simp [fill, Array.getElem?_setIfInBounds_ne different.symm]

/-- Between the two arenas nothing has changed but the ends of the list and the slots in `touched`. -/
structure Rewired (touched : List Nat) (arena arena' : Arena κ α) : Prop where
  size : arena'.slots.size = arena.slots.size
  vacancy : arena'.vacancy = arena.vacancy
  elsewhere : ∀ slot, slot ∉ touched → arena'.slots[slot]? = arena.slots[slot]?

theorem Rewired.trans {touched touched' : List Nat} {first second third : Arena κ α}
    (earlier : Rewired touched first second) (later : Rewired touched' second third) :
    Rewired (touched ++ touched') first third where
  size := later.size.trans earlier.size
  vacancy := later.vacancy.trans earlier.vacancy
  elsewhere slot untouched := by
    rw [List.mem_append, not_or] at untouched
    rw [later.elsewhere slot untouched.2, earlier.elsewhere slot untouched.1]

theorem Rewired.mono {touched touched' : List Nat} {arena arena' : Arena κ α}
    (rewired : Rewired touched arena arena') (more : touched ⊆ touched') :
    Rewired touched' arena arena' where
  size := rewired.size
  vacancy := rewired.vacancy
  elsewhere slot untouched := rewired.elsewhere slot fun member => untouched (more member)

theorem rewired_fill (arena : Arena κ α) (slot : Nat) (content : Slot κ α) :
    Rewired [slot] arena (arena.fill slot content) where
  size := by simp [fill]
  vacancy := rfl
  elsewhere other untouched := fill_other_slot arena content (by simpa using untouched)

/-! ## Turning one link of a segment -/

/-- The first node of a segment can be told what is fresher than it. -/
theorem set_fresher_of_segment (arena : Arena κ α) {before after : Option Nat} {path : List (Place κ α)}
    (linked : Segment arena.slots before path after) (distinct : (slotsOf path).Nodup)
    (before' : Option Nat) :
    ∃ arena', arena.setFresher? (firstSlot none path) before' = .ok arena' ∧
      Segment arena'.slots before' path after ∧ arena'.freshest = arena.freshest ∧
      arena'.coldest = arena.coldest ∧ Rewired (slotsOf path) arena arena' := by
  cases path with
  | nil => exact ⟨arena, rfl, trivial, rfl, rfl, rfl, rfl, fun _ _ => rfl⟩
  | cons place rest =>
      have occupied := linked.1
      have absent : place.slot ∉ slotsOf rest := (List.nodup_cons.mp distinct).1
      refine ⟨arena.fill place.slot (.occupied ⟨place.entry, before', firstSlot after rest⟩), ?_,
        ⟨fill_own_slot occupied _, ?_⟩, rfl, rfl, (rewired_fill arena place.slot _).mono ?_⟩
      · simp only [firstSlot, setFresher?, node_of_occupied occupied]
        rfl
      · apply segment_of_same_slots linked.2
        intro slot member
        exact fill_other_slot arena _ fun same => absent (same ▸ member)
      · simp

/-- The last node of a segment can be told what is colder than it. -/
theorem set_colder_of_segment (arena : Arena κ α) {before after : Option Nat} {path : List (Place κ α)}
    {place : Place κ α} (linked : Segment arena.slots before (path ++ [place]) after)
    (distinct : (slotsOf (path ++ [place])).Nodup) (after' : Option Nat) :
    ∃ arena', arena.setColder? place.slot after' = .ok arena' ∧
      Segment arena'.slots before (path ++ [place]) after' ∧ arena'.freshest = arena.freshest ∧
      arena'.coldest = arena.coldest ∧ Rewired (slotsOf (path ++ [place])) arena arena' := by
  obtain ⟨init, last, _⟩ := (segment_append _ _ _ _ _).mp linked
  have absent : place.slot ∉ slotsOf path := by
    rw [slots_of_append, List.nodup_append] at distinct
    exact fun member => distinct.2.2 _ member _ (by simp) rfl
  refine ⟨arena.fill place.slot (.occupied ⟨place.entry, lastSlot before path, after'⟩), ?_,
    (segment_append _ _ _ _ _).mpr ⟨?_, fill_own_slot last _, trivial⟩, rfl, rfl,
    (rewired_fill arena place.slot _).mono ?_⟩
  · simp only [setColder?, node_of_occupied last]
    rfl
  · apply segment_of_same_slots init
    intro slot member
    exact fill_other_slot arena _ fun same => absent (same ▸ member)
  · simp

/-! ## The whole list -/

/-- The list of an arena runs along a path, whose slots are all different. -/
structure Linked (arena : Arena κ α) (path : List (Place κ α)) : Prop where
  segment : Segment arena.slots none path none
  freshest : arena.freshest = firstSlot none path
  coldest : arena.coldest = lastSlot none path
  distinct : (slotsOf path).Nodup

theorem distinct_around {path rest : List (Place κ α)} {place : Place κ α}
    (distinct : (slotsOf (path ++ place :: rest)).Nodup) :
    place.slot ∉ slotsOf (path ++ rest) ∧ (slotsOf (path ++ rest)).Nodup := by
  have moved : (slotsOf (path ++ place :: rest)).Perm (place.slot :: slotsOf (path ++ rest)) := by
    simp only [slots_of_append, slots_of_cons]
    exact List.perm_middle
  exact List.nodup_cons.mp (moved.nodup_iff.mp distinct)

/-- Where the list ends once a slot has been taken out of it. -/
theorem coldest_without {arena : Arena κ α} {path rest : List (Place κ α)} {place : Place κ α}
    (linked : Linked arena (path ++ place :: rest)) :
    (if arena.coldest = some place.slot then lastSlot none path else arena.coldest) =
      lastSlot none (path ++ rest) := by
  have absent := (distinct_around linked.distinct).1
  rw [linked.coldest, last_slot_append, last_slot_append]
  exact last_slot_without_first _ place rest fun member => absent (by simp [member])

private theorem unlink_first {arena : Arena κ α} {rest : List (Place κ α)} {place : Place κ α}
    (linked : Linked arena (place :: rest)) :
    ∃ arena', arena.unlink? place.slot = .ok arena' ∧ Linked arena' rest ∧
      arena'.slots[place.slot]? = arena.slots[place.slot]? ∧ Rewired (slotsOf rest) arena arena' := by
  obtain ⟨absent, distinct⟩ := List.nodup_cons.mp linked.distinct
  obtain ⟨occupied, colder⟩ := linked.segment
  obtain ⟨arena', success, segment, freshest, coldest, rewired⟩ := set_fresher_of_segment
    { arena with freshest := firstSlot none rest, coldest := lastSlot none rest } colder distinct none
  refine ⟨arena', ?_, ⟨segment, freshest, coldest, distinct⟩,
    rewired.elsewhere _ absent, rewired.size, rewired.vacancy, rewired.elsewhere⟩
  have first : arena.freshest = some place.slot := linked.freshest
  have ending := coldest_without (show Linked arena ([] ++ place :: rest) from linked)
  simp only [List.nil_append, lastSlot] at ending
  simp only [unlink?, node_of_occupied occupied, bind, Except.bind, if_pos first, ending]
  exact success

private theorem unlink_inner {arena : Arena κ α} {path rest : List (Place κ α)} {neighbour place : Place κ α}
    (linked : Linked arena (path ++ [neighbour] ++ place :: rest)) :
    ∃ arena', arena.unlink? place.slot = .ok arena' ∧ Linked arena' (path ++ [neighbour] ++ rest) ∧
      arena'.slots[place.slot]? = arena.slots[place.slot]? ∧
      Rewired (slotsOf (path ++ [neighbour] ++ rest)) arena arena' := by
  obtain ⟨absent, distinct⟩ := distinct_around linked.distinct
  obtain ⟨fresher, occupied, colder⟩ := (segment_append _ _ _ _ _).mp linked.segment
  have split := distinct
  rw [slots_of_append, List.nodup_append] at split
  obtain ⟨fresherDistinct, colderDistinct, apart⟩ := split
  rw [slots_of_append, List.mem_append, not_or] at absent
  have sameFirst : ∀ after, firstSlot none (path ++ [neighbour] ++ after) = firstSlot none (path ++ [neighbour]) := by
    intro after
    cases path <;> rfl
  have notFirst : arena.freshest ≠ some place.slot := by
    intro first
    rw [linked.freshest, sameFirst] at first
    exact absent.1 (first_slot_mem _ _ first)
  -- The fresher neighbour is turned first, and then the colder one if there is one.
  obtain ⟨between, success, segment, freshest, coldest, rewired⟩ := set_colder_of_segment
    { arena with coldest := lastSlot none (path ++ [neighbour] ++ rest) } fresher fresherDistinct
    (firstSlot none rest)
  obtain ⟨arena', success', segment', freshest', coldest', rewired'⟩ := set_fresher_of_segment between
    (segment_of_same_slots colder fun slot member =>
      rewired.elsewhere slot fun other => apart slot other slot member rfl)
    colderDistinct (some neighbour.slot)
  refine ⟨arena', ?_, ⟨(segment_append _ _ _ _ _).mpr ⟨?_, ?_⟩, ?_, ?_, distinct⟩, ?_, ?_⟩
  · have ending := coldest_without linked
    simp only [last_slot_append, lastSlot] at ending success
    simp only [unlink?, node_of_occupied occupied, bind, Except.bind, if_neg notFirst,
      last_slot_append, lastSlot, ending, success]
    exact success'
  · apply segment_of_same_slots segment
    intro slot member
    exact rewired'.elsewhere slot fun other => apart slot member slot other rfl
  · simpa [lastSlot] using segment'
  · calc
      arena'.freshest = arena.freshest := freshest'.trans freshest
      _ = firstSlot none (path ++ [neighbour] ++ rest) := by rw [linked.freshest, sameFirst, sameFirst]
  · exact coldest'.trans coldest
  · exact (rewired'.elsewhere _ absent.2).trans (rewired.elsewhere _ absent.1)
  · obtain ⟨size, vacancy, elsewhere⟩ := rewired.trans rewired'
    rw [slots_of_append]
    exact ⟨size, vacancy, elsewhere⟩

/-- Taking out a slot joins the two segments around it. The slot itself keeps its entry. -/
theorem unlink_of_linked {arena : Arena κ α} {path rest : List (Place κ α)} {place : Place κ α}
    (linked : Linked arena (path ++ place :: rest)) :
    ∃ arena', arena.unlink? place.slot = .ok arena' ∧ Linked arena' (path ++ rest) ∧
      arena'.slots[place.slot]? = arena.slots[place.slot]? ∧
      Rewired (slotsOf (path ++ rest)) arena arena' := by
  rcases path.eq_nil_or_concat with rfl | ⟨init, neighbour, rfl⟩
  · exact unlink_first linked
  · rw [List.concat_eq_append] at linked ⊢
    exact unlink_inner linked

/-- An occupied slot off the path can be put in front of it. -/
theorem link_freshest_of_linked {arena : Arena κ α} {path : List (Place κ α)} {slot : Nat}
    {node : Node κ α} (linked : Linked arena path)
    (occupied : arena.slots[slot]? = some (.occupied node)) (absent : slot ∉ slotsOf path) :
    ∃ arena', arena.linkFreshest? slot = .ok arena' ∧
      Linked arena' (⟨slot, node.entry⟩ :: path) ∧ Rewired (slot :: slotsOf path) arena arena' := by
  let front : Slot κ α := .occupied ⟨node.entry, none, arena.freshest⟩
  have segment : Segment (arena.fill slot front).slots none path none := by
    apply segment_of_same_slots linked.segment
    intro other member
    exact fill_other_slot arena _ fun same => absent (same ▸ member)
  obtain ⟨between, success, segment', freshest, coldest, rewired⟩ :=
    set_fresher_of_segment (arena.fill slot front) segment linked.distinct (some slot)
  refine ⟨{ between with freshest := some slot, coldest := between.coldest.or (some slot) }, ?_,
    ⟨⟨?_, segment'⟩, rfl, ?_, List.nodup_cons.mpr ⟨absent, linked.distinct⟩⟩, ?_⟩
  · rw [← linked.freshest] at success
    simp only [linkFreshest?, node_of_occupied occupied, bind, Except.bind]
    simp only [front] at success
    rw [success]
    rfl
  · show between.slots[slot]? = _
    rw [rewired.elsewhere slot absent, fill_own_slot occupied, ← linked.freshest]
  · show between.coldest.or (some slot) = _
    rw [coldest]
    show arena.coldest.or (some slot) = _
    rw [linked.coldest, last_slot_or]
    rfl
  · obtain ⟨size, vacancy, elsewhere⟩ := (rewired_fill arena slot front).trans rewired
    exact ⟨size, vacancy, elsewhere⟩

end Arena

end MemoryBudget
