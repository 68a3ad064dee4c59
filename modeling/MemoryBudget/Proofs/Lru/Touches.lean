import MemoryBudget.Proofs.Lru.Refinement

/-!
# What an operation does to the order

An event is an operation together with its outcome. Only an insertion that is admitted and a search that finds
touch a key. One law covers all operations: the entry under the touched key, if any, stands at the front, and
behind it stand the entries before whose keys were neither touched nor released, in their order. The history of a
store is a list of events, and the last touch of a key is a position in it.
-/

set_option autoImplicit false

namespace MemoryBudget

namespace Lru

open RecencyList

variable {κ α : Type}

structure Event (κ α : Type) where
  operation : Operation κ α
  outcome : Outcome κ α

def Outcome.evictions : Outcome κ α → List (Entry κ α)
  | .placed (.admitted _ entries) => entries
  | .evicted entries => entries
  | .rescaled (.ok entries) => entries
  | _ => []

namespace Event

def admitted? : Event κ α → Option (Entry κ α)
  | ⟨.insert entry, .placed (.admitted _ _)⟩ => some entry
  | _ => none

def touched? : Event κ α → Option κ
  | ⟨.insert entry, .placed (.admitted _ _)⟩ => some entry.key
  | ⟨.get key, .found (some _)⟩ => some key
  | _ => none

def released : Event κ α → List (Entry κ α)
  | ⟨.remove _, .removed entry⟩ => entry.toList
  | ⟨_, outcome⟩ => outcome.evictions

variable [BEq κ]

def touches (event : Event κ α) (key : κ) : Bool :=
  event.touched?.any (· == key)

def releases (event : Event κ α) (key : κ) : Bool :=
  event.released.any (·.key == key)

def renews (event : Event κ α) (key : κ) : Bool :=
  event.admitted?.any (·.key == key) || event.releases key

/-- The entry that is at the front when the operation is done, if the operation has put it there. -/
def front? (entries : List (Entry κ α)) : Event κ α → Option (Entry κ α)
  | ⟨.insert entry, .placed (.admitted _ _)⟩ => some entry
  | ⟨.get key, .found (some _)⟩ => entries.find? (·.key == key)
  | _ => none

def leaves (entries : List (Entry κ α)) (event : Event κ α) : List (Entry κ α) :=
  (event.front? entries).toList ++ entries.filter fun entry => !event.touches entry.key && !event.releases entry.key

end Event

variable [BEq κ]

/-! ## Histories -/

/-- The number of the last event that touches the key, counted from one, or zero if there is none. -/
def lastTouch (events : List (Event κ α)) (key : κ) : Nat :=
  events.length - events.reverse.findIdx (·.touches key)

/-- The entry was admitted, and since then no entry under its key was admitted, removed or evicted. -/
def Stands (events : List (Event κ α)) (entry : Entry κ α) : Prop :=
  ∃ earlier event later, events = earlier ++ event :: later ∧ event.admitted? = some entry ∧
    ∀ other ∈ later, other.renews entry.key = false

theorem last_touch_snoc (events : List (Event κ α)) (event : Event κ α) (key : κ) :
    lastTouch (events ++ [event]) key =
      if event.touches key then events.length + 1 else lastTouch events key := by
  unfold lastTouch
  rw [List.reverse_append, List.reverse_singleton, List.singleton_append, List.findIdx_cons, List.length_append,
    List.length_singleton]
  cases event.touches key with
  | true => rfl
  | false =>
      simp only [cond_false, Bool.false_eq_true, if_false]
      omega

theorem last_touch_le (events : List (Event κ α)) (key : κ) : lastTouch events key ≤ events.length :=
  Nat.sub_le _ _

theorem stands_nothing (entry : Entry κ α) : ¬ Stands [] entry := by
  rintro ⟨earlier, event, later, parted, _⟩
  cases earlier <;> cases parted

theorem stands_snoc {events : List (Event κ α)} {event : Event κ α} {entry : Entry κ α} :
    Stands (events ++ [event]) entry ↔
      event.admitted? = some entry ∨ Stands events entry ∧ event.renews entry.key = false := by
  constructor
  · rintro ⟨earlier, first, later, parted, admitted, since⟩
    rcases List.eq_nil_or_concat later with rfl | ⟨between, last, rfl⟩
    · obtain ⟨_, same⟩ := List.append_inj' parted rfl
      cases same
      exact Or.inl admitted
    · rw [List.concat_eq_append, ← List.cons_append, ← List.append_assoc] at parted
      obtain ⟨rfl, same⟩ := List.append_inj' parted rfl
      cases same
      rw [List.concat_eq_append, List.forall_mem_append] at since
      exact Or.inr ⟨⟨earlier, first, between, rfl, admitted, since.1⟩, since.2 event List.mem_cons_self⟩
  · rintro (admitted | ⟨⟨earlier, first, later, rfl, admitted, since⟩, kept⟩)
    · exact ⟨events, event, [], rfl, admitted, fun _ none => nomatch none⟩
    · refine ⟨earlier, first, later ++ [event], by simp, admitted, ?_⟩
      exact List.forall_mem_append.mpr ⟨since, List.forall_mem_singleton.mpr kept⟩

theorem last_touch_of_untouched {events : List (Event κ α)} {event : Event κ α} {key : κ}
    (untouched : event.touches key = false) : lastTouch (events ++ [event]) key = lastTouch events key := by
  rw [last_touch_snoc, untouched]
  rfl

theorem last_touch_of_touched {events : List (Event κ α)} {event : Event κ α} {key : κ}
    (touched : event.touches key = true) : lastTouch (events ++ [event]) key = events.length + 1 := by
  rw [last_touch_snoc, touched]
  rfl

/-- The entries are those that stand after the events, the one touched last in front. -/
structure Remembers (events : List (Event κ α)) (entries : List (Entry κ α)) : Prop where
  residence : ∀ entry, entry ∈ entries ↔ Stands events entry
  touched : ∀ entry ∈ entries, 0 < lastTouch events entry.key
  order : entries.Pairwise fun fresher colder => lastTouch events colder.key < lastTouch events fresher.key

theorem remembers_nothing : Remembers ([] : List (Event κ α)) [] where
  residence entry := iff_of_false List.not_mem_nil (stands_nothing entry)
  touched _ member := nomatch member
  order := List.Pairwise.nil

/-! ## The law of events -/

/-- An event admits an entry, finds one, or puts none in front. -/
theorem Event.kinds (event : Event κ α) (entries : List (Entry κ α)) :
    (∃ entry, event.admitted? = some entry ∧ event.touched? = some entry.key ∧ event.front? entries = some entry) ∨
    (∃ key, event.admitted? = none ∧ event.touched? = some key ∧ event.released = [] ∧
      event.front? entries = entries.find? (·.key == key)) ∨
    (event.admitted? = none ∧ event.touched? = none ∧ event.front? entries = none) := by
  obtain ⟨operation, outcome⟩ := event
  cases operation with
  | insert entry =>
      rcases outcome with (_ | _) | _ | _ | _ | _ | _
      case placed.admitted => exact Or.inl ⟨entry, rfl, rfl, rfl⟩
      all_goals exact Or.inr (Or.inr ⟨rfl, rfl, rfl⟩)
  | get key =>
      rcases outcome with _ | (_ | value) | _ | _ | _ | _
      case found.some => exact Or.inr (Or.inl ⟨key, rfl, rfl, rfl, rfl⟩)
      all_goals exact Or.inr (Or.inr ⟨rfl, rfl, rfl⟩)
  | _ => exact Or.inr (Or.inr ⟨rfl, rfl, rfl⟩)

theorem mem_filter_untouched {event : Event κ α} {entries : List (Entry κ α)} {entry : Entry κ α} :
    (entry ∈ entries.filter fun entry => !event.touches entry.key && !event.releases entry.key) ↔
      entry ∈ entries ∧ event.touches entry.key = false ∧ event.releases entry.key = false := by
  rw [List.mem_filter, Bool.and_eq_true, Bool.not_eq_true', Bool.not_eq_true']

theorem Event.leaves_idle {event : Event κ α} {entries : List (Entry κ α)} (front : event.front? entries = none)
    (untouched : event.touched? = none) (nothing : event.released = []) : event.leaves entries = entries := by
  rw [Event.leaves, front, Option.toList_none, List.nil_append, List.filter_eq_self]
  intro entry _
  rw [Event.touches, Event.releases, untouched, nothing]
  rfl

variable [EquivBEq κ]

/-- What stays of a list without the keys of its end is the rest of it. -/
theorem filter_without_end {kept gone : List (Entry κ α)} (distinct : DistinctKeys (kept ++ gone.reverse)) :
    (kept ++ gone.reverse).filter (fun entry => !gone.any (·.key == entry.key)) = kept := by
  obtain ⟨_, _, across⟩ := List.pairwise_append.mp distinct
  rw [List.filter_append, List.filter_eq_self.mpr, List.filter_eq_nil_iff.mpr, List.append_nil]
  · intro entry member
    simp only [Bool.not_eq_true, Bool.not_eq_false']
    exact List.any_eq_true.mpr ⟨entry, List.mem_reverse.mp member, BEq.rfl⟩
  · intro entry member
    rw [Bool.not_eq_true', List.any_eq_false]
    intro other left
    rw [BEq.comm, across entry member other (List.mem_reverse.mpr left)]
    exact Bool.false_ne_true

theorem Event.leaves_evicted {event : Event κ α} {entries kept gone : List (Entry κ α)}
    (distinct : DistinctKeys entries) (parted : kept ++ gone.reverse = entries)
    (front : event.front? entries = none) (untouched : event.touched? = none) (evicted : event.released = gone) :
    event.leaves entries = kept := by
  subst parted
  have rest := filter_without_end distinct
  rw [Event.leaves, front, Option.toList_none, List.nil_append]
  simp only [Event.touches, Event.releases, untouched, evicted, Option.any_none, Bool.not_false, Bool.true_and]
  exact rest

theorem leaves_inserted (store : RecencyList κ α) (distinct : DistinctKeys store.entries) (entry : Entry κ α) :
    (store.insert entry).2.entries =
      Event.leaves store.entries ⟨.insert entry, .placed (store.insert entry).1⟩ := by
  by_cases tooCostly : store.limit ≤ entry.cost
  · rw [insert_of_too_costly tooCostly]
    exact (Event.leaves_idle rfl rfl rfl).symm
  · rw [insert_of_affordable tooCostly]
    have parted := split_append_reverse (store.limit.toNat - entry.cost.toNat) (store.others entry.key)
    have distinctOthers : DistinctKeys (store.others entry.key) := List.Pairwise.filter _ distinct
    rw [← parted] at distinctOthers
    have others := filter_without_end distinctOthers
    rw [parted, RecencyList.others, List.filter_filter] at others
    rw [Event.leaves]
    refine congrArg (entry :: ·) (others.symm.trans (List.filter_congr fun other _ => ?_))
    rw [Bool.and_comm, BEq.comm]
    rfl

theorem leaves_found (store : RecencyList κ α) (key : κ) :
    (store.get key).2.entries = Event.leaves store.entries ⟨.get key, .found (store.get key).1⟩ := by
  rw [RecencyList.get]
  cases found : store.find? key with
  | none => exact (Event.leaves_idle rfl rfl rfl).symm
  | some entry =>
      have front : Event.front? store.entries ⟨.get key, .found (some entry.value)⟩ = some entry := found
      rw [Event.leaves, front]
      refine congrArg (entry :: ·) (List.filter_congr fun other _ => ?_)
      rw [BEq.comm, Bool.and_comm]
      rfl

theorem leaves_removed (store : RecencyList κ α) (key : κ) :
    (store.remove key).2.entries = Event.leaves store.entries ⟨.remove key, .removed (store.remove key).1⟩ := by
  rw [RecencyList.remove]
  cases found : store.find? key with
  | none =>
      rw [RecencyList.others, others_of_absent found]
      exact (Event.leaves_idle rfl rfl rfl).symm
  | some entry =>
      have same : (entry.key == key) = true := by simpa using List.find?_some found
      refine List.filter_congr fun other _ => ?_
      rw [← beq_key_congr same, BEq.comm, ← Bool.or_false (entry.key == other.key)]
      rfl

/-- Whatever the operation, the entry that it touches stands in front of those that it neither touches nor
releases. -/
theorem perform_leaves (store : RecencyList κ α) (distinct : DistinctKeys store.entries)
    (operation : Operation κ α) :
    (store.perform operation).2.entries = Event.leaves store.entries ⟨operation, (store.perform operation).1⟩ := by
  cases operation with
  | insert entry => exact leaves_inserted store distinct entry
  | get key => exact leaves_found store key
  | peek key => exact (Event.leaves_idle rfl rfl rfl).symm
  | contains key => exact (Event.leaves_idle rfl rfl rfl).symm
  | remove key => exact leaves_removed store key
  | trimTo target => exact (Event.leaves_evicted distinct (split_append_reverse _ _) rfl rfl rfl).symm
  | clear => exact (Event.leaves_evicted distinct (List.reverse_reverse _) rfl rfl rfl).symm
  | rescale multiplier =>
      rw [RecencyList.perform]
      cases validity : multiplier.validate with
      | error invalid =>
          rw [rescale_of_invalid validity]
          exact (Event.leaves_idle rfl rfl rfl).symm
      | ok _ =>
          rw [rescale_of_valid validity]
          exact (Event.leaves_evicted distinct (split_append_reverse _ _) rfl rfl rfl).symm

/-! ## What the law says about one entry -/

theorem Event.touches_front {event : Event κ α} {entries : List (Entry κ α)} {entry : Entry κ α}
    (front : event.front? entries = some entry) : event.touches entry.key = true := by
  rcases event.kinds entries with ⟨_, _, touched, atFront⟩ | ⟨key, _, touched, _, atFront⟩ | ⟨_, _, atFront⟩
  · rw [front] at atFront
    cases atFront
    rw [Event.touches, touched]
    exact BEq.rfl
  · rw [front] at atFront
    have found := List.find?_some atFront.symm
    rw [Event.touches, touched]
    exact BEq.symm found
  · rw [front] at atFront
    cases atFront

theorem find_member {entries : List (Entry κ α)} (distinct : DistinctKeys entries) {entry : Entry κ α} {key : κ}
    (member : entry ∈ entries) (same : (key == entry.key) = true) :
    entries.find? (·.key == key) = some entry := by
  obtain ⟨fresher, colder, rfl⟩ := List.append_of_mem member
  have others := (distinct_keys_around distinct).2
  have notFresher : fresher.find? (·.key == key) = none := by
    refine List.find?_eq_none.mpr fun other among => ?_
    rw [beq_key_congr same, others other (List.mem_append_left _ among)]
    exact Bool.false_ne_true
  rw [List.find?_append, notFresher, Option.none_or]
  exact List.find?_cons_of_pos (BEq.symm same)

/-- An entry is there afterwards if it was admitted, or if it was there and no entry under its key was admitted,
removed or evicted. -/
theorem Event.mem_leaves {event : Event κ α} {entries : List (Entry κ α)} (distinct : DistinctKeys entries)
    (entry : Entry κ α) :
    entry ∈ event.leaves entries ↔
      event.admitted? = some entry ∨ entry ∈ entries ∧ event.renews entry.key = false := by
  rw [Event.leaves, List.mem_append, Option.mem_toList, mem_filter_untouched]
  rcases event.kinds entries with ⟨_, admitted, touched, front⟩ | ⟨key, refused, touched, nothing, front⟩ |
    ⟨refused, untouched, front⟩
  · simp only [Event.touches, Event.renews, admitted, touched, front, Option.any_some, Bool.or_eq_false_iff]
  · simp only [Event.touches, Event.renews, Event.releases, refused, touched, nothing, front, Option.any_some,
      Option.any_none, List.any_nil, Bool.or_false, and_true, reduceCtorEq, false_or]
    constructor
    · rintro (found | ⟨member, _⟩)
      · exact List.mem_of_find?_eq_some found
      · exact member
    · intro member
      cases same : key == entry.key with
      | true => exact Or.inl (find_member distinct member same)
      | false => exact Or.inr ⟨member, rfl⟩
  · simp only [Event.touches, Event.renews, refused, untouched, front, Option.any_none, Bool.false_or,
      reduceCtorEq, false_or, true_and]

/-- Entries whose keys are not touched keep their order. -/
theorem Event.leaves_order (event : Event κ α) (entries : List (Entry κ α)) :
    ((event.leaves entries).filter fun entry => !event.touches entry.key).Sublist entries := by
  have none : (event.front? entries).toList.filter (fun entry => !event.touches entry.key) = [] := by
    rw [List.filter_eq_nil_iff]
    intro entry member
    rw [Event.touches_front (Option.mem_toList.mp member)]
    exact Bool.false_ne_true
  rw [Event.leaves, List.filter_append, none, List.nil_append]
  exact List.filter_sublist.trans List.filter_sublist

/-! ## The history decides the entries and their order -/

/-- One more event. -/
theorem Remembers.snoc {events : List (Event κ α)} {entries : List (Entry κ α)} (remembers : Remembers events entries)
    (distinct : DistinctKeys entries) (event : Event κ α) :
    Remembers (events ++ [event]) (event.leaves entries) where
  residence entry := by rw [event.mem_leaves distinct, stands_snoc, remembers.residence]
  touched entry member := by
    rcases List.mem_append.mp member with front | behind
    · rw [last_touch_of_touched (Event.touches_front (Option.mem_toList.mp front))]
      exact Nat.succ_pos _
    · obtain ⟨resident, untouched, _⟩ := mem_filter_untouched.mp behind
      rw [last_touch_of_untouched untouched]
      exact remembers.touched entry resident
  order := by
    rw [Event.leaves, List.pairwise_append]
    refine ⟨?_, ?_, ?_⟩
    · cases event.front? entries with
      | none => exact List.Pairwise.nil
      | some entry => exact List.pairwise_singleton _ entry
    · refine List.Pairwise.imp_of_mem ?_ (remembers.order.filter _)
      intro fresher colder before after earlier
      rw [last_touch_of_untouched (mem_filter_untouched.mp before).2.1,
        last_touch_of_untouched (mem_filter_untouched.mp after).2.1]
      exact earlier
    · intro first front entry behind
      rw [last_touch_of_touched (Event.touches_front (Option.mem_toList.mp front)),
        last_touch_of_untouched (mem_filter_untouched.mp behind).2.1]
      exact Nat.lt_succ_of_le (last_touch_le events entry.key)

/-! ## Histories of stores -/

variable [Hashable κ]

def events (store : Lru κ α) (operations : List (Operation κ α)) : List (Event κ α) :=
  List.zipWith Event.mk operations (store.run operations).1

variable [LawfulHashable κ]

theorem Intact.leaves {store : Lru κ α} (intact : Intact store) (operation : Operation κ α) :
    (store.perform operation).2.entries = Event.leaves store.entries ⟨operation, (store.perform operation).1⟩ := by
  obtain ⟨outcome, state, _⟩ := intact.perform_agrees operation
  rw [outcome, show (store.perform operation).2.entries = _ from congrArg RecencyList.entries state]
  exact perform_leaves store.meaning intact.distinct_keys operation

theorem Remembers.run {earlier : List (Event κ α)} {store : Lru κ α} (intact : Intact store)
    (remembers : Remembers earlier store.entries) (operations : List (Operation κ α)) :
    Remembers (earlier ++ store.events operations) (store.run operations).2.entries := by
  induction operations generalizing earlier store with
  | nil =>
      rw [show earlier ++ store.events [] = earlier from List.append_nil earlier]
      exact remembers
  | cons operation rest ih =>
      have next := remembers.snoc intact.distinct_keys ⟨operation, (store.perform operation).1⟩
      rw [← intact.leaves operation] at next
      have later := ih (intact.perform_agrees operation).intact next
      rw [List.append_assoc] at later
      exact later

end Lru

end MemoryBudget
