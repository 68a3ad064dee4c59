import MemoryBudget.Proofs.Lru.Touches

/-!
# Which entry is evicted

An operation that evicts takes the coldest entry out of its slot, again and again, so that each entry leaves at a
moment of its own. At that moment it is the resident entry whose key was touched least recently. Together with the
history of touches this says all there is to say about recency.
-/

set_option autoImplicit false

namespace MemoryBudget

namespace Lru

open Arena RecencyList

variable {κ α : Type} [BEq κ] [Hashable κ]

/-- One store comes out of another by evicting the coldest entry some number of times. Each moment is an entry
with the store that it is about to leave. -/
inductive Unlinks : Lru κ α → List (Entry κ α × Lru κ α) → Lru κ α → Prop where
  | nothing (store : Lru κ α) : Unlinks store [] store
  | coldest {store between store' : Lru κ α} {slot : Nat} {entry : Entry κ α}
      {moments : List (Entry κ α × Lru κ α)} (coldest : store.arena.coldest = some slot)
      (first : store.evictSlot? slot = .ok (entry, between)) (later : Unlinks between moments store') :
      Unlinks store ((entry, store) :: moments) store'

/-- The store from which an operation evicts. What it admits takes the place of what was under its key, and a new
limit is in force. -/
def beforeEvicting (store : Lru κ α) : Operation κ α → Lru κ α
  | .insert entry => if store.limit ≤ entry.cost then store else (store.remove entry.key).2
  | .rescale multiplier =>
      match store.budget.rescale multiplier with
      | .ok budget => { store with budget := budget }
      | .error _ => store
  | .trimTo _ => store
  | .clear => store
  | operation => (store.perform operation).2

/-! ## Evictions one by one -/

variable [EquivBEq κ] [LawfulHashable κ]

theorem Represents.shed_unlinks (target : UInt64) {store : Lru κ α} {path : List (Place κ α)} {vacancies : List Nat}
    (represents : Represents store path vacancies) (steps : Nat) (enough : path.length ≤ steps) :
    ∃ moments store', store.shed? target steps = .ok (moments.map (·.1), store') ∧ Unlinks store moments store' := by
  induction path using List.reverseRecOn generalizing store vacancies steps with
  | nil =>
      have within : store.budget.used ≤ target := by
        rw [UInt64.le_iff_toNat_le, represents.exactUse]
        exact Nat.zero_le _
      exact ⟨[], store, shed_within steps within, .nothing store⟩
  | append_singleton path last ih =>
      by_cases within : store.budget.used ≤ target
      · exact ⟨[], store, shed_within steps within, .nothing store⟩
      · rw [List.length_append, List.length_singleton] at enough
        obtain ⟨steps, rfl⟩ : ∃ fewer, steps = fewer + 1 := ⟨steps - 1, by omega⟩
        obtain ⟨between, first, represents', _⟩ := represents.evict_coldest
        obtain ⟨moments, store', later, unlinks⟩ := ih represents' steps (by omega)
        exact ⟨(last.entry, store) :: moments, store', shed_coldest within represents.coldest_place first later,
          .coldest represents.coldest_place first unlinks⟩

theorem Represents.drain_unlinks {store : Lru κ α} {path : List (Place κ α)} {vacancies : List Nat}
    (represents : Represents store path vacancies) (steps : Nat) (enough : path.length ≤ steps) :
    ∃ moments store', store.drain? steps = .ok (moments.map (·.1), store') ∧ Unlinks store moments store' := by
  induction path using List.reverseRecOn generalizing store vacancies steps with
  | nil =>
      exact ⟨[], store, drain_nothing steps represents.laid.linked.coldest, .nothing store⟩
  | append_singleton path last ih =>
      rw [List.length_append, List.length_singleton] at enough
      obtain ⟨steps, rfl⟩ : ∃ fewer, steps = fewer + 1 := ⟨steps - 1, by omega⟩
      obtain ⟨between, first, represents', _⟩ := represents.evict_coldest
      obtain ⟨moments, store', later, unlinks⟩ := ih represents' steps (by omega)
      exact ⟨(last.entry, store) :: moments, store', drain_coldest represents.coldest_place first later,
        .coldest represents.coldest_place first unlinks⟩

/-- Trimming evicts one by one, and what it is meant to. -/
theorem Realizes.unlinks {store : Lru κ α} {path : List (Place κ α)} {vacancies : List Nat} {target : UInt64}
    {meant : List (Entry κ α) × RecencyList κ α} (realizes : Realizes (store.trimTo? target) meant)
    (represents : Represents store path vacancies) :
    ∃ moments store', Unlinks store moments store' ∧ moments.map (·.1) = meant.1 ∧
      store'.entries = meant.2.entries := by
  obtain ⟨moments, store', success, unlinks⟩ := represents.shed_unlinks target _ represents.path_length_le
  obtain ⟨store'', success', state, _⟩ := realizes
  rw [trimTo?, success] at success'
  obtain ⟨same, rfl⟩ := Prod.mk.inj (Except.ok.inj success')
  exact ⟨moments, store', unlinks, same, congrArg RecencyList.entries state⟩

/-- Each entry is the last of those that are there when it leaves, and these are the first of those that were there
to begin with. -/
theorem Unlinks.coldest_of_moment {store store' : Lru κ α} {moments : List (Entry κ α × Lru κ α)}
    (unlinks : Unlinks store moments store') {path : List (Place κ α)} {vacancies : List Nat}
    (represents : Represents store path vacancies) :
    ∀ moment ∈ moments, ∃ fresher, moment.2.entries = fresher ++ [moment.1] ∧ moment.2.entries <+: store.entries := by
  induction unlinks generalizing path vacancies with
  | nothing store => exact fun _ none => nomatch none
  | @coldest store between _ slot entry moments coldest first later ih =>
      obtain ⟨before, last, rfl, rfl, represents'⟩ := represents.evicts_last coldest first
      have whole : store.entries = between.entries ++ [last.entry] := by
        rw [represents.entries, represents'.entries, entries_of_append]
        rfl
      refine List.forall_mem_cons.mpr ⟨⟨between.entries, whole, List.prefix_refl _⟩, ?_⟩
      intro moment among
      obtain ⟨fresher, ends, leads⟩ := ih represents' moment among
      refine ⟨fresher, ends, leads.trans ?_⟩
      rw [whole]
      exact List.prefix_append _ _

/-- An operation evicts one by one, from a store with no other order than before. -/
theorem Intact.perform_unlinks {store : Lru κ α} (intact : Intact store) (operation : Operation κ α) :
    ∃ moments emptied, Unlinks (store.beforeEvicting operation) moments emptied ∧
      moments.map (·.1) = (store.perform operation).1.evictions ∧
      (store.perform operation).2.entries =
        (Event.mk operation (store.perform operation).1).admitted?.toList ++ emptied.entries := by
  obtain ⟨path, vacancies, represents⟩ := intact.represented
  obtain ⟨outcome, state, _⟩ := intact.perform_agrees operation
  have entries : (store.perform operation).2.entries = (store.meaning.perform operation).2.entries :=
    congrArg RecencyList.entries state
  cases operation with
  | insert entry =>
      rw [outcome, entries, beforeEvicting, RecencyList.perform]
      by_cases tooCostly : store.limit ≤ entry.cost
      · rw [if_pos tooCostly, insert_of_too_costly (show store.meaning.limit ≤ entry.cost from tooCostly)]
        exact ⟨[], store, .nothing store, rfl, rfl⟩
      · have affordable : entry.cost ≤ store.limit := UInt64.le_of_lt (UInt64.not_le.mp tooCostly)
        obtain ⟨_, cleared, clearedIntact⟩ := intact.remove_agrees entry.key
        obtain ⟨_, _, represents'⟩ := clearedIntact.represented
        obtain ⟨moments, emptied, unlinks, evicted, left⟩ :=
          (clearedIntact.trim_checked (store.limit - entry.cost)).unlinks represents'
        rw [cleared, RecencyList.remove, RecencyList.trimTo, UInt64.toNat_sub_of_le _ _ affordable] at evicted left
        rw [if_neg tooCostly, insert_of_affordable (show ¬ store.meaning.limit ≤ entry.cost from tooCostly)]
        exact ⟨moments, emptied, unlinks, evicted, congrArg (entry :: ·) left.symm⟩
  | trimTo target =>
      obtain ⟨moments, emptied, unlinks, evicted, left⟩ := (intact.trim_checked target).unlinks represents
      rw [outcome, entries]
      exact ⟨moments, emptied, unlinks, evicted, left.symm⟩
  | clear =>
      obtain ⟨moments, emptied, success, unlinks⟩ := represents.drain_unlinks _ represents.path_length_le
      obtain ⟨_, success', state', _⟩ := intact.clear_checked
      rw [clear?, success] at success'
      obtain ⟨same, rfl⟩ := Prod.mk.inj (Except.ok.inj success')
      rw [outcome, entries]
      exact ⟨moments, emptied, unlinks, same, (congrArg RecencyList.entries state').symm⟩
  | rescale multiplier =>
      rw [outcome, entries, beforeEvicting, Budget.rescale, RecencyList.perform]
      cases validity : multiplier.validate with
      | error invalid =>
          rw [rescale_of_invalid validity]
          exact ⟨[], store, .nothing store, rfl, rfl⟩
      | ok _ =>
          obtain ⟨moments, emptied, unlinks, evicted, left⟩ :=
            (intact.rescale_checked (scaleSize store.budget.base multiplier)).unlinks (represents.set_limit _)
          rw [rescale_of_valid validity]
          exact ⟨moments, emptied, unlinks, evicted, left.symm⟩
  | get key => exact ⟨[], _, .nothing _, by rfl, by rfl⟩
  | peek key => exact ⟨[], _, .nothing _, rfl, rfl⟩
  | contains key => exact ⟨[], _, .nothing _, rfl, rfl⟩
  | remove key => exact ⟨[], _, .nothing _, rfl, rfl⟩

theorem Intact.represents_before_evicting {store : Lru κ α} (intact : Intact store) (operation : Operation κ α) :
    ∃ path vacancies, Represents (store.beforeEvicting operation) path vacancies := by
  cases operation with
  | insert entry =>
      rw [beforeEvicting]
      split
      · exact intact.represented
      · exact (intact.remove_agrees entry.key).intact.represented
  | rescale multiplier =>
      obtain ⟨path, vacancies, represents⟩ := intact.represented
      rw [beforeEvicting, Budget.rescale]
      cases multiplier.validate with
      | error invalid => exact ⟨path, vacancies, represents⟩
      | ok _ => exact ⟨path, vacancies, represents.set_limit _⟩
  | trimTo target => exact intact.represented
  | clear => exact intact.represented
  | get key => exact (intact.perform_agrees (.get key)).intact.represented
  | peek key => exact intact.represented
  | contains key => exact intact.represented
  | remove key => exact (intact.perform_agrees (.remove key)).intact.represented

/-- What is evicted is evicted from entries that have kept their order. -/
theorem Intact.order_before_evicting {store : Lru κ α} (intact : Intact store) (operation : Operation κ α) :
    (store.beforeEvicting operation).entries.Sublist store.entries ∨
      (store.perform operation).1.evictions = [] := by
  cases operation with
  | insert entry =>
      left
      rw [beforeEvicting]
      split
      · exact List.Sublist.refl _
      · rw [show (store.remove entry.key).2.entries = store.meaning.others entry.key from
          congrArg RecencyList.entries (intact.remove_agrees entry.key).state]
        exact List.filter_sublist
  | rescale multiplier =>
      left
      rw [beforeEvicting, Budget.rescale]
      cases multiplier.validate <;> exact List.Sublist.refl _
  | trimTo target => exact Or.inl (List.Sublist.refl _)
  | clear => exact Or.inl (List.Sublist.refl _)
  | get key => exact Or.inr rfl
  | peek key => exact Or.inr rfl
  | contains key => exact Or.inr rfl
  | remove key => exact Or.inr rfl

structure Oldest (events : List (Event κ α)) (store : Lru κ α) (entry : Entry κ α) : Prop where
  resident : entry ∈ store.entries
  earlier : ∀ other ∈ store.entries, other ≠ entry → lastTouch events entry.key < lastTouch events other.key

/-- Every moment of an eviction finds the oldest entry about to leave. -/
theorem Unlinks.oldest_of_moment {events : List (Event κ α)} {store store' : Lru κ α}
    {moments : List (Entry κ α × Lru κ α)} (unlinks : Unlinks store moments store') {path : List (Place κ α)}
    {vacancies : List Nat} (represents : Represents store path vacancies)
    (order : store.entries.Pairwise fun fresher colder => lastTouch events colder.key < lastTouch events fresher.key) :
    ∀ moment ∈ moments, Oldest events moment.2 moment.1 := by
  intro moment among
  obtain ⟨fresher, ends, leads⟩ := unlinks.coldest_of_moment represents moment among
  have ordered := order.sublist leads.sublist
  rw [ends] at ordered
  refine ⟨by rw [ends]; exact List.mem_append_right _ List.mem_cons_self, ?_⟩
  intro other resident different
  rw [ends] at resident
  rcases List.mem_append.mp resident with before | last
  · exact (List.pairwise_append.mp ordered).2.2 other before moment.1 List.mem_cons_self
  · exact absurd (List.mem_singleton.mp last) different

/-- The entries of a store and their order follow from what was touched and released, and from nothing else. A key
is resident if no entry under it was admitted, removed or evicted since one was admitted, and the last such one is
there; the entries stand in the order of their last touches; whatever is done next evicts at each moment the resident
entry that was touched least recently; and what it does not touch keeps its order. -/
theorem recency_is_history_of_touches (limit : UInt64) (operations : List (Operation κ α)) :
    let store := ((ofLimit limit : Lru κ α).run operations).2
    let events := (ofLimit limit : Lru κ α).events operations
    (store.entries.Pairwise fun fresher colder => lastTouch events colder.key < lastTouch events fresher.key) ∧
    (∀ entry ∈ store.entries, 0 < lastTouch events entry.key) ∧
    (∀ entry, entry ∈ store.entries ↔ Stands events entry) ∧
    (∀ key, store.contains key = true ↔ ∃ entry, Stands events entry ∧ (entry.key == key) = true) ∧
    ∀ operation,
      (∃ moments emptied, Unlinks (store.beforeEvicting operation) moments emptied ∧
        moments.map (·.1) = (store.perform operation).1.evictions ∧
        (store.perform operation).2.entries =
          (Event.mk operation (store.perform operation).1).admitted?.toList ++ emptied.entries ∧
        ∀ moment ∈ moments, Oldest events moment.2 moment.1) ∧
      ((store.perform operation).2.entries.filter fun entry =>
        !(Event.mk operation (store.perform operation).1).touches entry.key).Sublist store.entries := by
  intro store events
  have intact : Intact store := ((of_limit_intact limit).run_agrees operations).intact
  have remembers : Remembers events store.entries := remembers_nothing.run (of_limit_intact limit) operations
  refine ⟨remembers.order, remembers.touched, remembers.residence, ?_, ?_⟩
  · intro key
    rw [intact.contains_eq, RecencyList.find?, List.find?_isSome]
    exact exists_congr fun entry => and_congr_left fun _ => remembers.residence entry
  · intro operation
    constructor
    · obtain ⟨moments, emptied, unlinks, evicted, left⟩ := intact.perform_unlinks operation
      refine ⟨moments, emptied, unlinks, evicted, left, ?_⟩
      obtain ⟨path, vacancies, represents⟩ := intact.represents_before_evicting operation
      rcases intact.order_before_evicting operation with kept | nothing
      · exact unlinks.oldest_of_moment represents (remembers.order.sublist kept)
      · rw [nothing, List.map_eq_nil_iff] at evicted
        rw [evicted]
        exact fun _ none => absurd none List.not_mem_nil
    · rw [intact.leaves operation]
      exact Event.leaves_order _ _

/-- Neither a look nor a refused replacement saves a key from being the oldest. -/
theorem looked_at_key_is_evicted :
    let operations : List (Operation Nat String) :=
      [.insert ⟨1, "a", 3⟩, .insert ⟨2, "b", 3⟩, .get 1, .peek 2, .insert ⟨2, "c", 10⟩, .contains 2]
    let store := ((ofLimit 10 : Lru Nat String).run operations).2
    let events := (ofLimit 10 : Lru Nat String).events operations
    (store.perform (.insert ⟨3, "d", 5⟩)).1.evictions = [⟨2, "b", 3⟩] ∧
      (∃ moment, Oldest events moment ⟨2, "b", 3⟩) ∧ lastTouch events 2 = 2 ∧ lastTouch events 1 = 3 := by
  intro operations store events
  obtain ⟨outcomes, state, intact⟩ := (of_limit_intact 10).run_agrees operations
  have evicted : (store.perform (.insert ⟨3, "d", 5⟩)).1.evictions = [⟨2, "b", 3⟩] := by
    rw [(intact.perform_agrees _).outcome, state]
    rfl
  have told : events = List.zipWith Event.mk operations ((RecencyList.ofLimit 10).run operations).1 :=
    congrArg (List.zipWith Event.mk operations) outcomes
  obtain ⟨_, _, _, _, next⟩ := recency_is_history_of_touches 10 operations
  obtain ⟨⟨moments, _, _, same, oldest⟩, _⟩ := next (.insert ⟨3, "d", 5⟩)
  rw [evicted, List.map_eq_singleton_iff] at same
  obtain ⟨moment, rfl, first⟩ := same
  refine ⟨evicted, ⟨moment.2, ?_⟩, ?_, ?_⟩
  · rw [← first]
    exact oldest.2 moment List.mem_cons_self
  · rw [told]
    rfl
  · rw [told]
    rfl

end Lru

end MemoryBudget
