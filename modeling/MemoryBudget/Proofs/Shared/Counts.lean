import MemoryBudget.Shared.Basic
import Mathlib.Tactic.Common

/-!
# Counts of handles

Each allocation counts the handles to it that are alive. They are in custody, in the cache, or elsewhere for as long as
a call has them. What clients do with handles moves them about, and whatever is copied or dropped is counted.
-/

set_option autoImplicit false

namespace MemoryBudget

namespace Shared

/-- How many of these handles reach the same allocation as the first one. -/
def reaching (probe : Handle) (handles : List Handle) : Nat :=
  handles.countP probe.sameAllocation

theorem reaching_append (probe : Handle) (handles more : List Handle) :
    reaching probe (handles ++ more) = reaching probe handles + reaching probe more :=
  List.countP_append

theorem reaching_cons (probe handle : Handle) (handles : List Handle) :
    reaching probe (handle :: handles) = reaching probe [handle] + reaching probe handles :=
  reaching_append probe [handle] handles

theorem reaching_perm {handles handles' : List Handle} (same : handles.Perm handles') (probe : Handle) :
    reaching probe handles = reaching probe handles' :=
  same.countP_eq _

theorem reaching_singleton (probe handle : Handle) :
    reaching probe [handle] = if probe.allocation = handle.allocation then 1 else 0 := by
  simp [reaching, Handle.sameAllocation, List.countP_cons]

theorem reaching_pos {handle : Handle} {handles : List Handle} (member : handle ∈ handles) :
    0 < reaching handle handles :=
  List.countP_pos_iff.mpr ⟨handle, member, beq_self_eq_true _⟩

/-! ## Allocations -/

namespace Allocations

variable {ν : Type}

theorem handles_recount (allocations : Allocations ν) (handle probe : Handle) (change : Nat → Nat) :
    (allocations.recount handle change).handles probe =
      if probe.allocation = handle.allocation then
        (allocations.cells[handle.allocation]?.map fun cell => change cell.handles).getD 0
      else
        allocations.handles probe := by
  unfold recount handles
  rw [Array.getElem?_modify]
  by_cases same : handle.allocation = probe.allocation
  · rw [if_pos same, if_pos same.symm, ← same, Option.map_map]
    rfl
  · rw [if_neg same, if_neg fun other => same other.symm]

theorem handles_drop (allocations : Allocations ν) (handle probe : Handle) :
    (allocations.drop handle).handles probe = allocations.handles probe - reaching probe [handle] := by
  rw [drop, handles_recount, reaching_singleton]
  split
  · rename_i same
    rw [handles, same]
    cases allocations.cells[handle.allocation]? <;> rfl
  · rfl

/-- A handle is copied from one that is alive. -/
theorem handles_copy {allocations : Allocations ν} {handle : Handle} (alive : 0 < allocations.handles handle)
    (probe : Handle) :
    (allocations.copy handle).handles probe = allocations.handles probe + reaching probe [handle] := by
  rw [copy, handles_recount, reaching_singleton]
  split
  · rename_i same
    rw [handles, same]
    unfold handles at alive
    cases found : allocations.cells[handle.allocation]? with
    | none =>
        rw [found] at alive
        cases alive
    | some cell => rfl
  · rfl

theorem handles_congr (allocations : Allocations ν) {one other : Handle} (same : one.allocation = other.allocation) :
    allocations.handles one = allocations.handles other := by
  rw [handles, handles, same]

/-- Handles to allocations with different counts reach different allocations. -/
theorem reaching_of_handles {allocations : Allocations ν} {probe handle : Handle}
    (different : allocations.handles probe ≠ allocations.handles handle) : reaching probe [handle] = 0 := by
  rw [reaching_singleton, if_neg]
  exact fun same => different (allocations.handles_congr same)

theorem handles_allocate (allocations : Allocations ν) (value : ν) (size : UInt64) (probe : Handle) :
    (allocations.allocate value size).2.handles probe =
      allocations.handles probe + reaching probe [⟨allocations.cells.size, size⟩] := by
  rw [reaching_singleton, allocate, handles, handles, Array.getElem?_push]
  split
  · rename_i isNew
    rw [isNew, Array.getElem?_eq_none (Nat.le_refl _)]
    rfl
  · rfl

end Allocations

/-! ## Custody -/

namespace Custody

variable (custody : Custody) (handle : Handle) (name : String)

theorem handles_grasp : (custody.grasp handle).handles.Perm (handle :: custody.handles) :=
  List.perm_middle

theorem handles_put_aside : (custody.putAside handle).handles.Perm (handle :: custody.handles) := by
  unfold handles putAside
  rw [List.append_assoc, List.append_assoc]
  exact List.perm_middle

theorem handles_assign : (custody.assign name handle).handles.Perm (handle :: custody.handles) :=
  List.Perm.refl _

variable {custody handle name}

theorem handles_let_go {rest : Custody} (letGo : custody.letGo? = some (handle, rest)) :
    custody.handles.Perm (handle :: rest.handles) := by
  unfold letGo? at letGo
  split at letGo
  · cases letGo
  · rename_i held
    cases letGo
    rw [handles, held]
    exact List.perm_middle

theorem perm_of_lookup {named : List (String × Handle)} (found : named.lookup name = some handle) :
    (named.map (·.2)).Perm (handle :: (named.eraseP (·.1 == name)).map (·.2)) := by
  induction named with
  | nil => cases found
  | cons pair rest ih =>
      obtain ⟨given, other⟩ := pair
      rw [List.lookup_cons, BEq.comm] at found
      rw [List.eraseP_cons]
      cases same : given == name with
      | true =>
          rw [same] at found
          cases found
          exact List.Perm.refl _
      | false =>
          rw [same] at found
          exact ((ih found).cons other).trans (List.Perm.swap _ _ _)

theorem handles_unname {rest : Custody} (unnamed : custody.unname? name = some (handle, rest)) :
    custody.handles.Perm (handle :: rest.handles) := by
  obtain ⟨found, named, outcome⟩ := Option.map_eq_some_iff.mp unnamed
  cases outcome
  exact ((perm_of_lookup named).append_right _).append_right _

theorem mem_of_named (named : custody.named? name = some handle) : handle ∈ custody.handles := by
  apply List.mem_append_left
  apply List.mem_append_left
  exact (perm_of_lookup named).symm.subset List.mem_cons_self

end Custody

/-! ## The law of counts -/

variable {κ ν ℓ : Type} [BEq κ] [Hashable κ]

def State.handles (state : State κ ν ℓ) : List Handle :=
  state.custody.handles ++ values state.store.entries

/-- Each allocation counts the handles to it, wherever they are. Those of the dead were made and have none. -/
structure Balanced (dead : List Handle) (state : State κ ν ℓ) (elsewhere : List Handle) : Prop where
  counts : ∀ probe, state.allocations.handles probe = reaching probe (state.handles ++ elsewhere)
  dead : ∀ handle ∈ dead,
    handle.allocation < state.allocations.cells.size ∧ state.allocations.handles handle = 0

variable {dead : List Handle} {state state' : State κ ν ℓ} {elsewhere elsewhere' : List Handle} {handle : Handle}

/-- Handles may move from anywhere to anywhere. -/
theorem Balanced.rearranged (balanced : Balanced dead state elsewhere) (counts : state'.allocations = state.allocations)
    (same : (state.handles ++ elsewhere).Perm (state'.handles ++ elsewhere')) : Balanced dead state' elsewhere' := by
  constructor
  · intro probe
    rw [counts, balanced.counts probe]
    exact reaching_perm same probe
  · rw [counts]
    exact balanced.dead

/-- A handle in custody may go elsewhere, and one from elsewhere may come into custody. -/
theorem Balanced.entrusted (balanced : Balanced dead state elsewhere) {custody : Custody}
    (same : (state.custody.handles ++ elsewhere).Perm (custody.handles ++ elsewhere')) :
    Balanced dead { state with custody := custody } elsewhere' := by
  have counts : { state with custody := custody }.allocations = state.allocations := rfl
  apply balanced.rearranged counts
  unfold State.handles
  rw [List.append_assoc, List.append_assoc]
  apply (List.perm_append_comm_assoc _ _ _).trans
  exact (same.append_left _).trans (List.perm_append_comm_assoc _ _ _)

/-- A handle may go into the cache, or leave it. -/
theorem Balanced.restocked (balanced : Balanced dead state elsewhere) {store : Lru κ Handle}
    (same : (values state.store.entries ++ elsewhere).Perm (values store.entries ++ elsewhere')) :
    Balanced dead { state with store := store } elsewhere' := by
  have counts : { state with store := store }.allocations = state.allocations := rfl
  apply balanced.rearranged counts
  unfold State.handles
  rw [List.append_assoc, List.append_assoc]
  exact same.append_left _

theorem Balanced.taken (balanced : Balanced dead state elsewhere) {custody : Custody}
    (taken : state.custody.handles.Perm (handle :: custody.handles)) :
    Balanced dead { state with custody := custody } (handle :: elsewhere) :=
  balanced.entrusted ((taken.append_right elsewhere).trans List.perm_middle.symm)

theorem Balanced.given (balanced : Balanced dead state (handle :: elsewhere)) {custody : Custody}
    (given : custody.handles.Perm (handle :: state.custody.handles)) :
    Balanced dead { state with custody := custody } elsewhere :=
  balanced.entrusted (List.perm_middle.trans (given.symm.append_right elsewhere))

theorem Balanced.grasped (balanced : Balanced dead state (handle :: elsewhere)) :
    Balanced dead (state.grasp handle) elsewhere :=
  balanced.given (state.custody.handles_grasp handle)

/-- A handle that is alive may be copied. -/
theorem Balanced.copied (balanced : Balanced dead state elsewhere) (member : handle ∈ state.handles ++ elsewhere)
    (size : UInt64) : Balanced dead (state.countCopy handle) ({ handle with size := size } :: elsewhere) := by
  have alive : 0 < state.allocations.handles handle := by
    rw [balanced.counts handle]
    exact reaching_pos member
  have copied : ∀ probe, (state.countCopy handle).allocations.handles probe =
      state.allocations.handles probe + reaching probe [handle] := Allocations.handles_copy alive
  constructor
  · intro probe
    have counted := balanced.counts probe
    have sameHandles : (state.countCopy handle).handles = state.handles := rfl
    have sameReach : reaching probe [{ handle with size := size }] = reaching probe [handle] := by
      rw [reaching_singleton, reaching_singleton]
    rw [reaching_append] at counted
    rw [copied, sameHandles, reaching_append, reaching_cons probe _ elsewhere, sameReach]
    omega
  · intro other isDead
    obtain ⟨made, none⟩ := balanced.dead other isDead
    have different : state.allocations.handles other ≠ state.allocations.handles handle := by
      rw [none]
      exact Nat.ne_of_lt alive
    rw [copied, none, Allocations.reaching_of_handles different]
    exact ⟨Nat.lt_of_lt_of_eq made (Array.size_modify).symm, rfl⟩

theorem Balanced.dropped (balanced : Balanced dead state (handle :: elsewhere)) :
    Balanced dead (state.countDrop handle) elsewhere := by
  have dropped : ∀ probe, (state.countDrop handle).allocations.handles probe =
      state.allocations.handles probe - reaching probe [handle] :=
    Allocations.handles_drop state.allocations handle
  constructor
  · intro probe
    have counted := balanced.counts probe
    have sameHandles : (state.countDrop handle).handles = state.handles := rfl
    rw [reaching_append, reaching_cons] at counted
    rw [dropped, sameHandles, reaching_append]
    omega
  · intro other isDead
    obtain ⟨made, none⟩ := balanced.dead other isDead
    rw [dropped, none, Nat.zero_sub]
    exact ⟨Nat.lt_of_lt_of_eq made (Array.size_modify).symm, rfl⟩

/-- A new handle is alive. -/
theorem Balanced.made (balanced : Balanced dead state elsewhere) (value : ν) (size : UInt64) :
    Balanced dead (state.make value size) elsewhere := by
  have made : ∀ probe, (state.allocations.allocate value size).2.handles probe = _ :=
    Allocations.handles_allocate state.allocations value size
  have more : (state.allocations.allocate value size).2.cells.size = state.allocations.cells.size + 1 :=
    Array.size_push _
  apply Balanced.grasped
  constructor
  · intro probe
    have counted := balanced.counts probe
    show (state.allocations.allocate value size).2.handles probe = reaching probe (state.handles ++ _)
    rw [reaching_append] at counted
    rw [made, reaching_append, reaching_cons probe _ elsewhere]
    omega
  · intro other isDead
    obtain ⟨older, none⟩ := balanced.dead other isDead
    show other.allocation < (state.allocations.allocate value size).2.cells.size ∧
      (state.allocations.allocate value size).2.handles other = 0
    rw [made, more, none, reaching_singleton, if_neg (Nat.ne_of_lt older)]
    exact ⟨Nat.lt_succ_of_lt older, rfl⟩

/-! ## What clients do with handles -/

/-- The cache and the listener are as before, and the counts still tell how many handles there are. -/
structure Handled (state state' : State κ ν ℓ) : Prop where
  store : state'.store = state.store
  listener : state'.listener = state.listener
  balanced : ∀ dead elsewhere, Balanced dead state elsewhere → Balanced dead state' elsewhere

theorem Handled.refl (state : State κ ν ℓ) : Handled state state := ⟨rfl, rfl, fun _ _ balanced => balanced⟩

theorem make_handled (state : State κ ν ℓ) (value : ν) (size : UInt64) : Handled state (state.make value size) :=
  ⟨rfl, rfl, fun _ _ balanced => balanced.made value size⟩

theorem copy_handled (state : State κ ν ℓ) (name : String) (size : Option UInt64) :
    Handled state (state.copyNamed name size).2 := by
  unfold State.copyNamed
  split
  · exact .refl state
  · rename_i handle named
    refine ⟨rfl, rfl, fun dead elsewhere balanced => ?_⟩
    have member : handle ∈ state.handles ++ elsewhere :=
      List.mem_append_left _ (List.mem_append_left _ (Custody.mem_of_named named))
    exact (balanced.copied member _).grasped

theorem take_handled (state : State κ ν ℓ) (name : String) : Handled state (state.takeNamed name).2 := by
  unfold State.takeNamed
  split
  · exact .refl state
  · rename_i unnamed
    refine ⟨rfl, rfl, fun dead elsewhere balanced => ?_⟩
    exact (balanced.taken (Custody.handles_unname unnamed)).grasped

/-- Whatever is done with the handle in hand is done with a handle that is no longer in custody. -/
theorem with_hand_handled {α : Type} (state : State κ ν ℓ) (otherwise : α)
    (pass : State κ ν ℓ → Handle → α × State κ ν ℓ)
    (passes : ∀ state handle, (pass state handle).2.store = state.store ∧
      (pass state handle).2.listener = state.listener ∧
        ∀ dead elsewhere, Balanced dead state (handle :: elsewhere) → Balanced dead (pass state handle).2 elsewhere) :
    Handled state (state.withHand otherwise pass).2 := by
  unfold State.withHand
  split
  · exact .refl state
  · rename_i handle custody letGo
    obtain ⟨store, listener, balances⟩ := passes { state with custody := custody } handle
    refine ⟨store, listener, fun dead elsewhere balanced => ?_⟩
    exact balances dead elsewhere (balanced.taken (Custody.handles_let_go letGo))

theorem name_handled (state : State κ ν ℓ) (name : String) : Handled state (state.nameHand name).2 := by
  apply with_hand_handled
  intro state handle
  cases unnamed : state.custody.unname? name with
  | none => exact ⟨rfl, rfl, fun dead elsewhere balanced => balanced.given (Custody.handles_assign _ _ _)⟩
  | some taken =>
      obtain ⟨older, custody⟩ := taken
      refine ⟨rfl, rfl, fun dead elsewhere balanced => ?_⟩
      have displaced := (balanced.taken (Custody.handles_unname unnamed)).dropped
      exact displaced.given (Custody.handles_assign _ _ _)

theorem put_aside_handled (state : State κ ν ℓ) : Handled state state.putHandAside.2 := by
  apply with_hand_handled
  intro state handle
  exact ⟨rfl, rfl, fun dead elsewhere balanced => balanced.given (Custody.handles_put_aside _ _)⟩

theorem drop_handled (state : State κ ν ℓ) : Handled state state.dropHand.2 := by
  apply with_hand_handled
  intro state handle
  exact ⟨rfl, rfl, fun dead elsewhere balanced => balanced.dropped⟩

theorem reclaim_handled (state : State κ ν ℓ) : Handled state state.reclaimHand.2 := by
  apply with_hand_handled
  intro state handle
  exact ⟨rfl, rfl, fun dead elsewhere balanced => balanced.dropped⟩

theorem Balanced.all_dropped (handles : List Handle) (balanced : Balanced dead state (handles ++ elsewhere)) :
    Balanced dead (handles.foldl State.countDrop state) elsewhere := by
  induction handles generalizing state with
  | nil => exact balanced
  | cons handle rest ih => exact ih balanced.dropped

theorem foldl_count_drop (handles : List Handle) (state : State κ ν ℓ) :
    (handles.foldl State.countDrop state).store = state.store ∧
      (handles.foldl State.countDrop state).listener = state.listener := by
  induction handles generalizing state with
  | nil => exact ⟨rfl, rfl⟩
  | cons handle rest ih => exact ih (state.countDrop handle)

theorem drop_aside_handled (state : State κ ν ℓ) : Handled state state.dropAside.2 := by
  unfold State.dropAside
  obtain ⟨store, listener⟩ := foldl_count_drop state.custody.aside
    { state with custody := { state.custody with aside := [] } }
  refine ⟨store, listener, fun dead elsewhere balanced => ?_⟩
  apply Balanced.all_dropped
  apply balanced.entrusted
  unfold Custody.handles
  simp only [List.append_nil, List.append_assoc]
  apply List.Perm.append_left
  exact List.perm_append_comm_assoc _ _ _

end Shared

end MemoryBudget
