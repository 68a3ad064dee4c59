import MemoryBudget.Proofs.Lru.Relief
import MemoryBudget.Proofs.Lru.Unlinking

/-!
# Trimming again and again

Trimming to one target and then to another is trimming to the smaller one: the same entries leave in the same order,
and the same store is left, slot for slot. What leaves is the least that has to. Clearing goes on where trimming to
nothing stops, and an insertion is a removal, a trim and an insertion that evicts nothing. The laws are stated for
whatever trims, so that they hold of caches and pools once these are seen to trim as their stores do.
-/

set_option autoImplicit false

namespace MemoryBudget

/-! ## Laws of trimming -/

/-- Something that holds items at a cost, and gives them up from the coldest on. -/
structure Trimmer (σ ω : Type) where
  /-- Freshest first. -/
  items : σ → List ω
  cost : ω → UInt64
  used : σ → UInt64
  trimTo : σ → UInt64 → List ω × σ
  clear : σ → List ω × σ

namespace Trimmer

variable {σ ω τ υ : Type}

def total (trimmer : Trimmer σ ω) : List ω → Nat
  | [] => 0
  | item :: rest => (trimmer.cost item).toNat + trimmer.total rest

structure Lawful (trimmer : Trimmer σ ω) (state : σ) : Prop where
  exact : (trimmer.used state).toNat = trimmer.total (trimmer.items state)
  /-- One target and then another come to the smaller one. -/
  composes : ∀ first second,
    let earlier := trimmer.trimTo state first
    let later := trimmer.trimTo earlier.2 second
    trimmer.trimTo state (min first second) = (earlier.1 ++ later.1, later.2)
  /-- The coldest items leave, and they leave coldest first. -/
  parted : ∀ target,
    trimmer.items state =
      trimmer.items (trimmer.trimTo state target).2 ++ (trimmer.trimTo state target).1.reverse
  within : ∀ target, trimmer.used (trimmer.trimTo state target).2 ≤ target
  /-- Wherever else the items are parted, so that the freshest of them are within the target, no fewer leave. -/
  fewest : ∀ (target : UInt64) fresher colder, trimmer.items state = fresher ++ colder →
    trimmer.total fresher ≤ target.toNat → (trimmer.trimTo state target).1.length ≤ colder.length
  /-- Clearing goes on where trimming to nothing stops. -/
  clears :
    let trimmed := trimmer.trimTo state 0
    let cleared := trimmer.clear trimmed.2
    trimmer.clear state = (trimmed.1 ++ cleared.1, cleared.2)
  /-- What is left there costs nothing. -/
  free : ∀ item ∈ trimmer.items (trimmer.trimTo state 0).2, trimmer.cost item = 0
  rest : (trimmer.clear (trimmer.trimTo state 0).2).1 = (trimmer.items (trimmer.trimTo state 0).2).reverse
  cleared : trimmer.items (trimmer.clear state).2 = []

/-- What lies `below` does the trimming; of what leaves there is told above, and the state above follows it. -/
structure Overlays (trimmer : Trimmer τ υ) (below : Trimmer σ ω) (view : τ → σ) (tell : ω → υ)
    (follow : τ → List ω → σ → τ) : Prop where
  items : ∀ state, trimmer.items state = (below.items (view state)).map tell
  used : ∀ state, trimmer.used state = below.used (view state)
  trims : ∀ state target,
    let trimmed := below.trimTo (view state) target
    trimmer.trimTo state target = (trimmed.1.map tell, follow state trimmed.1 trimmed.2)
  clears : ∀ state,
    let cleared := below.clear (view state)
    trimmer.clear state = (cleared.1.map tell, follow state cleared.1 cleared.2)
  view_follow : ∀ state left later, view (follow state left later) = later
  follow_follow : ∀ state left between more later,
    follow (follow state left between) more later = follow state (left ++ more) later

theorem total_tell {trimmer : Trimmer τ υ} {below : Trimmer σ ω} {tell : ω → υ} {items : List ω}
    (costs : ∀ item ∈ items, trimmer.cost (tell item) = below.cost item) :
    trimmer.total (items.map tell) = below.total items := by
  induction items with
  | nil => rfl
  | cons item rest ih =>
      rw [List.forall_mem_cons] at costs
      rw [List.map_cons, total, total, costs.1, ih costs.2]

/-- The laws hold above if they hold below, and what is told has the cost of what leaves. -/
theorem Overlays.lawful {trimmer : Trimmer τ υ} {below : Trimmer σ ω} {view : τ → σ} {tell : ω → υ}
    {follow : τ → List ω → σ → τ} (overlays : Overlays trimmer below view tell follow) {state : τ}
    (lawful : below.Lawful (view state))
    (costs : ∀ item ∈ below.items (view state), trimmer.cost (tell item) = below.cost item) :
    trimmer.Lawful state where
  exact := by
    rw [overlays.used, overlays.items, lawful.exact, total_tell costs]
  composes first second := by
    have composed := lawful.composes first second
    simp only [overlays.trims, overlays.view_follow, overlays.follow_follow, ← List.map_append] at composed ⊢
    rw [composed]
  parted target := by
    rw [overlays.items, lawful.parted target, overlays.trims, overlays.items, overlays.view_follow,
      List.map_append, List.map_reverse]
  within target := by
    rw [overlays.trims, overlays.used, overlays.view_follow]
    exact lawful.within target
  fewest target fresher colder parted within := by
    rw [overlays.items] at parted
    obtain ⟨fresher, colder, partedBelow, rfl, rfl⟩ := List.map_eq_append_iff.mp parted
    have among : ∀ item ∈ fresher, item ∈ below.items (view state) := by
      intro item member
      rw [partedBelow]
      exact List.mem_append_left _ member
    rw [total_tell fun item member => costs item (among item member)] at within
    rw [overlays.trims, List.length_map, List.length_map]
    exact lawful.fewest target fresher colder partedBelow within
  clears := by
    have clears := lawful.clears
    simp only [overlays.trims, overlays.clears, overlays.view_follow, overlays.follow_follow, ← List.map_append]
      at clears ⊢
    rw [clears]
  free item member := by
    rw [overlays.items, overlays.trims, overlays.view_follow] at member
    obtain ⟨inner, among, rfl⟩ := List.mem_map.mp member
    rw [costs inner]
    · exact lawful.free inner among
    · rw [lawful.parted 0]
      exact List.mem_append_left _ among
  rest := by
    rw [overlays.trims, overlays.clears, overlays.items, overlays.view_follow, lawful.rest, List.map_reverse]
  cleared := by
    rw [overlays.clears, overlays.items, overlays.view_follow, lawful.cleared]
    rfl

end Trimmer

/-! ## Plain lists -/

namespace RecencyList

variable {κ α : Type}

theorem longest_within_again (first second : Nat) (entries : List (Entry κ α)) :
    longestWithin second (longestWithin first entries) = longestWithin (min first second) entries := by
  induction entries generalizing first second with
  | nil => rfl
  | cons entry rest ih =>
      rw [longestWithin, longestWithin]
      by_cases fits : entry.cost.toNat ≤ first
      · rw [if_pos fits, longestWithin]
        by_cases fitsToo : entry.cost.toNat ≤ second
        · rw [if_pos fitsToo, if_pos (Nat.le_min.mpr ⟨fits, fitsToo⟩), ih, Nat.sub_min_sub_right]
        · rw [if_neg fitsToo, if_neg fun both => fitsToo (Nat.le_min.mp both).2]
      · rw [if_neg fits, if_neg fun both => fits (Nat.le_min.mp both).1]
        rfl

/-- What leaves at one target and then at another is what leaves at the smaller one. -/
theorem split_again (first second : Nat) (entries : List (Entry κ α)) :
    (split first entries).2 ++ (split second (split first entries).1).2 = (split (min first second) entries).2 := by
  have kept : (split second (split first entries).1).1 = (split (min first second) entries).1 :=
    longest_within_again first second entries
  have whole := split_append_reverse (min first second) entries
  rw [← kept] at whole
  -- The same entries stay either way, so what stands behind them is the same.
  have left :=
    calc (split second (split first entries).1).1 ++
          ((split first entries).2 ++ (split second (split first entries).1).2).reverse
      _ = ((split second (split first entries).1).1 ++ (split second (split first entries).1).2.reverse) ++
            (split first entries).2.reverse := by rw [List.reverse_append, List.append_assoc]
      _ = entries := by rw [split_append_reverse, split_append_reverse]
      _ = _ := whole.symm
  exact List.reverse_injective (List.append_cancel_left left)

theorem split_fewest {target : Nat} {entries fresher colder : List (Entry κ α)} (parted : entries = fresher ++ colder)
    (within : totalCost fresher ≤ target) : (split target entries).2.length ≤ colder.length := by
  have noLonger := longest_within_is_longest ⟨colder, parted.symm⟩ within
  have lengths := congrArg List.length (split_append_reverse target entries)
  have kept : (split target entries).1 = longestWithin target entries := rfl
  rw [List.length_append, List.length_reverse, kept, parted, List.length_append] at lengths
  rw [parted] at noLonger ⊢
  omega

theorem free_of_total_cost {entries : List (Entry κ α)} (nothing : totalCost entries = 0) :
    ∀ entry ∈ entries, entry.cost = 0 := by
  induction entries with
  | nil => exact fun _ none => nomatch none
  | cons entry rest ih =>
      rw [total_cost_cons] at nothing
      refine List.forall_mem_cons.mpr ⟨UInt64.toNat_inj.mp ?_, ih (by omega)⟩
      show entry.cost.toNat = 0
      omega

end RecencyList

/-! ## Stores -/

namespace Lru

open RecencyList

variable {κ α : Type} [BEq κ] [Hashable κ]

def trimmer (κ α : Type) [BEq κ] [Hashable κ] : Trimmer (Lru κ α) (Entry κ α) where
  items := entries
  cost := Entry.cost
  used := used
  trimTo := trimTo
  clear := clear

theorem trimmer_total (items : List (Entry κ α)) : (trimmer κ α).total items = totalCost items := by
  induction items with
  | nil => rfl
  | cons entry rest ih =>
      rw [total_cost_cons, ← ih]
      rfl

theorem Unlinks.append {first second third : Lru κ α} {earlier later : List (Entry κ α × Lru κ α)}
    (unlinks : Unlinks first earlier second) (unlinks' : Unlinks second later third) :
    Unlinks first (earlier ++ later) third := by
  induction unlinks with
  | nothing store => exact unlinks'
  | coldest coldest success _ ih => exact .coldest coldest success (ih unlinks')

/-- The coldest entry is one entry, so equally many evictions leave the very same store. -/
theorem Unlinks.unique {store left right : Lru κ α} {moments others : List (Entry κ α × Lru κ α)}
    (unlinks : Unlinks store moments left) (unlinks' : Unlinks store others right)
    (asMany : moments.length = others.length) : left = right := by
  induction unlinks generalizing others with
  | nothing store =>
      cases unlinks' with
      | nothing => rfl
      | coldest => cases asMany
  | coldest coldest success _ ih =>
      cases unlinks' with
      | nothing => cases asMany
      | coldest coldest' success' later' =>
          rw [coldest] at coldest'
          cases coldest'
          rw [success] at success'
          cases success'
          exact ih later' (Nat.succ.inj asMany)

/-- What leaves is evicted one by one, always the coldest. -/
def EvictsInTurn (store : Lru κ α) (outcome : List (Entry κ α) × Lru κ α) : Prop :=
  ∃ moments, Unlinks store moments outcome.2 ∧ moments.map (·.1) = outcome.1

/-- Evicting the same entries in two stretches or in one leaves the same store. -/
theorem EvictsInTurn.in_stretches {store : Lru κ α} {whole earlier later : List (Entry κ α) × Lru κ α}
    (evicts : EvictsInTurn store whole) (first : EvictsInTurn store earlier) (second : EvictsInTurn earlier.2 later)
    (same : earlier.1 ++ later.1 = whole.1) : whole = (earlier.1 ++ later.1, later.2) := by
  obtain ⟨moments, unlinks, evicted⟩ := evicts
  obtain ⟨before, unlinksBefore, evictedBefore⟩ := first
  obtain ⟨after, unlinksAfter, evictedAfter⟩ := second
  have evictedBoth : moments.map (·.1) = (before ++ after).map (·.1) := by
    rw [List.map_append, evicted, evictedBefore, evictedAfter, same]
  have asMany := congrArg List.length evictedBoth
  rw [List.length_map, List.length_map] at asMany
  exact Prod.ext same.symm (unlinks.unique (unlinksBefore.append unlinksAfter) asMany)

variable [EquivBEq κ] [LawfulHashable κ] {store : Lru κ α}

theorem Intact.trim_in_turn (intact : Intact store) (target : UInt64) : EvictsInTurn store (store.trimTo target) := by
  obtain ⟨path, vacancies, represents⟩ := intact.represented
  obtain ⟨moments, store', success, unlinks⟩ := represents.shed_unlinks target _ represents.path_length_le
  have same := (intact.trim_ok target).symm.trans success
  rw [Except.ok.inj same]
  exact ⟨moments, unlinks, rfl⟩

theorem Intact.clear_in_turn (intact : Intact store) : EvictsInTurn store store.clear := by
  obtain ⟨path, vacancies, represents⟩ := intact.represented
  obtain ⟨moments, store', success, unlinks⟩ := represents.drain_unlinks _ represents.path_length_le
  have same := intact.clear_ok.symm.trans success
  rw [Except.ok.inj same]
  exact ⟨moments, unlinks, rfl⟩

theorem Intact.trim_entries (intact : Intact store) (target : UInt64) :
    (store.trimTo target).2.entries = (split target.toNat store.entries).1 :=
  congrArg RecencyList.entries (intact.trim_agrees target).state

theorem Intact.trim_evicts (intact : Intact store) (target : UInt64) :
    (store.trimTo target).1 = (split target.toNat store.entries).2 :=
  (intact.trim_agrees target).outcome

theorem Intact.trim_composes (intact : Intact store) (first second : UInt64) :
    store.trimTo (min first second) =
      ((store.trimTo first).1 ++ ((store.trimTo first).2.trimTo second).1,
        ((store.trimTo first).2.trimTo second).2) := by
  have between := (intact.trim_agrees first).intact
  have evicted : (store.trimTo first).1 ++ ((store.trimTo first).2.trimTo second).1 =
      (store.trimTo (min first second)).1 := by
    rw [intact.trim_evicts, between.trim_evicts, intact.trim_evicts, intact.trim_entries, split_again,
      UInt64.toNat_min]
  exact (intact.trim_in_turn (min first second)).in_stretches (intact.trim_in_turn first) (between.trim_in_turn second)
    evicted

theorem Intact.clear_evicts (intact : Intact store) : store.clear.1 = store.entries.reverse :=
  intact.clear_agrees.outcome

theorem Intact.clear_continues (intact : Intact store) (target : UInt64) :
    store.clear =
      ((store.trimTo target).1 ++ (store.trimTo target).2.clear.1, (store.trimTo target).2.clear.2) := by
  have between := (intact.trim_agrees target).intact
  have evicted : (store.trimTo target).1 ++ (store.trimTo target).2.clear.1 = store.clear.1 := by
    rw [intact.clear_evicts, between.clear_evicts, intact.trim_evicts, intact.trim_entries]
    conv_rhs => rw [← split_append_reverse target.toNat store.entries]
    rw [List.reverse_append, List.reverse_reverse]
  exact intact.clear_in_turn.in_stretches (intact.trim_in_turn target) between.clear_in_turn evicted

theorem Intact.trims_lawfully (intact : Intact store) : (trimmer κ α).Lawful store where
  exact := by
    rw [trimmer_total]
    exact intact.exact_use
  composes := intact.trim_composes
  parted target := (intact.trim_sheds target).parted
  within := intact.trim_to_within
  fewest target fresher colder parted within := by
    rw [trimmer_total] at within
    show (store.trimTo target).1.length ≤ colder.length
    rw [intact.trim_evicts]
    exact split_fewest parted within
  clears := intact.clear_continues 0
  free := by
    apply free_of_total_cost
    have within := intact.trim_to_within 0
    rw [UInt64.le_iff_toNat_le, (intact.trim_agrees 0).intact.exact_use] at within
    exact Nat.le_zero.mp within
  rest := (intact.trim_agrees 0).intact.clear_evicts
  cleared := intact.clear_empties

/-! ## Insertions -/

omit [BEq κ] [Hashable κ] [EquivBEq κ] [LawfulHashable κ] in
/-- What succeeds in two steps succeeds in each. -/
theorem succeeds_of_bind {ε ρ ρ' : Type} {first : Except ε ρ} {next : ρ → Except ε ρ'} {outcome : ρ'}
    (success : (first >>= next) = .ok outcome) : ∃ between, first = .ok between ∧ next between = .ok outcome := by
  cases first with
  | error fault => cases success
  | ok between => exact ⟨between, rfl, success⟩

/-- What an insertion removes and evicts, and how it then places the entry. -/
theorem Intact.insert_in_stages (intact : Intact store) {entry : Entry κ α} (affordable : ¬ store.limit ≤ entry.cost) :
    let removed := store.remove entry.key
    let trimmed := removed.2.trimTo (store.limit - entry.cost)
    ∃ slot arena budget, trimmed.2.arena.occupy? entry = .ok (slot, arena) ∧
      trimmed.2.budget.take? entry.cost = .ok budget ∧
      store.insert entry = (.admitted removed.1 trimmed.1,
        { arena := arena, index := trimmed.2.index.insert entry.key slot, budget := budget }) := by
  intro removed trimmed
  have cleared := intact.remove_agrees entry.key
  have sameLimit : (store.remove entry.key).2.budget.limit = store.limit := congrArg RecencyList.limit cleared.state
  obtain ⟨outcome, success⟩ := (intact.insert_checked entry).succeeds
  have inserted : store.insert? entry = .ok (store.insert entry) := by
    rw [insert, success]
  rw [insert?, if_neg (show ¬ store.budget.limit ≤ entry.cost from affordable), intact.remove_ok] at inserted
  simp only [bind, Except.bind, sameLimit, cleared.intact.trim_ok] at inserted
  obtain ⟨⟨slot, arena⟩, occupied, rest⟩ := succeeds_of_bind inserted
  obtain ⟨budget, taken, placed⟩ := succeeds_of_bind rest
  exact ⟨slot, arena, budget, occupied, taken, (Except.ok.inj placed).symm⟩

theorem Intact.remove_of_absent (intact : Intact store) {key : κ} (absent : store.meaning.find? key = none) :
    store.remove key = (none, store) := by
  have missing : store.index[key]? = none := by
    rw [← Option.isNone_iff_eq_none, ← Option.isSome_eq_false_iff, ← Std.HashMap.contains_eq_isSome_getElem?]
    show store.contains key = false
    rw [intact.contains_eq, absent]
    rfl
  rw [remove, remove?, missing]

/-- Once nothing is left under its key and there is room for it, an entry is placed without further ado. -/
theorem Intact.insert_after_stages (intact : Intact store) {entry : Entry κ α}
    (affordable : ¬ store.limit ≤ entry.cost) :
    let removed := store.remove entry.key
    let trimmed := removed.2.trimTo (store.limit - entry.cost)
    trimmed.2.meaning.find? entry.key = none ∧
      store.insert entry = (.admitted removed.1 trimmed.1, (store.insert entry).2) ∧
      trimmed.2.insert entry = (.admitted none [], (store.insert entry).2) := by
  intro removed trimmed
  have cleared := intact.remove_agrees entry.key
  have emptied := cleared.intact.trim_agrees (store.limit - entry.cost)
  have sameLimit : trimmed.2.limit = store.limit :=
    (congrArg RecencyList.limit emptied.state).trans (congrArg RecencyList.limit cleared.state)
  have entries : trimmed.2.entries = (split (store.limit - entry.cost).toNat (store.meaning.others entry.key)).1 := by
    rw [cleared.intact.trim_entries]
    exact congrArg (fun list => (split _ list).1) (congrArg RecencyList.entries cleared.state)
  have absent : trimmed.2.meaning.find? entry.key = none := by
    rw [RecencyList.find?, List.find?_eq_none]
    intro other member
    rw [show trimmed.2.meaning.entries = _ from entries] at member
    rw [others_absent _ _ other ((split_sublist _ _).subset member)]
    exact Bool.false_ne_true
  -- There is nothing to remove and nothing to evict, so both insertions place the entry in the same store.
  have nothingUnder : trimmed.2.remove entry.key = (none, trimmed.2) := emptied.intact.remove_of_absent absent
  have nothingOver : trimmed.2.trimTo (store.limit - entry.cost) = ([], trimmed.2) :=
    trim_to_of_within (cleared.intact.trim_to_within _)
  obtain ⟨slot, arena, budget, occupied, taken, placed⟩ := intact.insert_in_stages affordable
  obtain ⟨slot', arena', budget', occupied', taken', placed'⟩ :=
    emptied.intact.insert_in_stages (show ¬ trimmed.2.limit ≤ entry.cost by rw [sameLimit]; exact affordable)
  rw [sameLimit, nothingUnder, nothingOver] at occupied' taken' placed'
  rw [occupied] at occupied'
  cases occupied'
  rw [taken] at taken'
  cases taken'
  exact ⟨absent, by rw [placed], by rw [placed', placed]⟩

/-- An admitted entry comes to what is under its key being removed, room being made, and an insertion that evicts
nothing. -/
structure InsertsInStages (store : Lru κ α) (entry : Entry κ α) (previous : Option (Entry κ α))
    (evicted : List (Entry κ α)) : Prop where
  removed : (store.remove entry.key).1 = previous
  trimmed : ((store.remove entry.key).2.trimTo (store.limit - entry.cost)).1 = evicted
  placed : ((store.remove entry.key).2.trimTo (store.limit - entry.cost)).2.insert entry =
    (.admitted none [], (store.insert entry).2)

theorem Intact.inserts_in_stages (intact : Intact store) {entry : Entry κ α} {previous : Option (Entry κ α)}
    {evicted : List (Entry κ α)} (admitted : (store.insert entry).1 = .admitted previous evicted) :
    InsertsInStages store entry previous evicted := by
  have affordable : ¬ store.limit ≤ entry.cost := by
    intro tooCostly
    rw [insert, insert?, if_pos (show store.budget.limit ≤ entry.cost from tooCostly)] at admitted
    cases admitted
  obtain ⟨_, whole, placed⟩ := intact.insert_after_stages affordable
  rw [whole] at admitted
  cases admitted
  exact ⟨rfl, rfl, placed⟩

end Lru

end MemoryBudget
