import MemoryBudget.Cache.Clients
import MemoryBudget.Proofs.Cache.Visits
import MemoryBudget.Proofs.Lru.UnitCosts

/-!
# The textbook cache

The textbook keeps keys with their values in a list, freshest first. What is put goes to the front, and if there are then
more than there is room for, the last one is dropped. A cache whose values cost one each does the same in another order:
it takes out what is under the key, counts costs to make room, and only then lets the new value in. What it replies and
what it holds is the same after every call, unless it has room for a single value: such a cache never lets anything in.
-/

set_option autoImplicit false

namespace MemoryBudget

namespace Cache

/-! ## The list of the textbook -/

namespace Textbook

inductive Request (κ α : Type) where
  | put (key : κ) (value : α)
  | get (key : κ)
  | peek (key : κ)
  | contains (key : κ)
  | remove (key : κ)

variable {κ α : Type}

def Request.call : Request κ α → Call κ α
  | .put key value => .put key value
  | .get key => .get key
  | .peek key => .peek key
  | .contains key => .contains key
  | .remove key => .remove key

def Request.nothing : (request : Request κ α) → (protocol κ α).Reply request.call
  | .put _ _ | .get _ | .peek _ | .remove _ => (none : Option α)
  | .contains _ => false

structure Snapshot (κ α : Type) extends Exchange (protocol κ α) where
  contents : List (κ × α)

variable [BEq κ]

def find? (contents : List (κ × α)) (key : κ) : Option (κ × α) :=
  contents.find? (·.1 == key)

def others (contents : List (κ × α)) (key : κ) : List (κ × α) :=
  contents.filter (!·.1 == key)

/-- Puts a value in front, and drops the last one if there are then too many. -/
def put (capacity : Nat) (contents : List (κ × α)) (key : κ) (value : α) : List (κ × α) :=
  let more := (key, value) :: others contents key
  if capacity < more.length then more.dropLast else more

def promote (contents : List (κ × α)) (key : κ) : List (κ × α) :=
  match find? contents key with
  | none => contents
  | some resident => resident :: others contents key

def reply (contents : List (κ × α)) : (request : Request κ α) → (protocol κ α).Reply request.call
  | .put key _ | .get key | .peek key | .remove key => (find? contents key).map (·.2)
  | .contains key => (find? contents key).isSome

def after (capacity : Nat) (contents : List (κ × α)) : Request κ α → List (κ × α)
  | .put key value => put capacity contents key value
  | .get key => promote contents key
  | .peek _ | .contains _ => contents
  | .remove key => others contents key

def snapshots (capacity : Nat) : List (Request κ α) → List (κ × α) → List (Snapshot κ α)
  | [], _ => []
  | request :: rest, contents =>
      { request := request.call, reply := reply contents request, contents := after capacity contents request } ::
        snapshots capacity rest (after capacity contents request)

/-- Dropping the last one is making room for the new one beforehand. -/
theorem put_eq {capacity : Nat} (roomy : 0 < capacity) {contents : List (κ × α)} {key : κ}
    (fits : (others contents key).length ≤ capacity) (value : α) :
    put capacity contents key value = (key, value) :: (others contents key).take (capacity - 1) := by
  obtain ⟨less, rfl⟩ : ∃ less, capacity = less + 1 := ⟨capacity - 1, by omega⟩
  rw [put, Nat.add_sub_cancel, List.length_cons]
  split
  · have full : (others contents key).length = less + 1 := by omega
    rw [List.dropLast_eq_take, List.length_cons, Nat.add_sub_cancel, full, List.take_succ_cons]
  · rw [List.take_of_length_le (by omega)]

theorem others_length_le (contents : List (κ × α)) (key : κ) : (others contents key).length ≤ contents.length :=
  List.length_filter_le _ _

theorem promote_length_le (contents : List (κ × α)) (key : κ) : (promote contents key).length ≤ contents.length := by
  rw [promote]
  cases found : find? contents key with
  | none => exact Nat.le_refl _
  | some resident =>
      rw [find?] at found
      have under : (resident.1 == key) = true := by simpa using List.find?_some found
      have fewer : (others contents key).length < contents.length :=
        List.length_filter_lt_length_iff_exists.mpr ⟨resident, List.mem_of_find?_eq_some found, by simp [under]⟩
      exact fewer

/-- There are never too many. -/
theorem after_length_le {capacity : Nat} {contents : List (κ × α)} (fits : contents.length ≤ capacity)
    (request : Request κ α) : (after capacity contents request).length ≤ capacity := by
  cases request with
  | put key value =>
      have fewer := (others_length_le contents key).trans fits
      rw [after, put]
      split
      · rw [List.length_dropLast, List.length_cons]
        exact fewer
      · rename_i enough
        exact Nat.not_lt.mp enough
  | get key => exact (promote_length_le contents key).trans fits
  | peek key => exact fits
  | contains key => exact fits
  | remove key => exact (others_length_le contents key).trans fits

/-- With room for nothing there is nothing, whatever is put. -/
theorem snapshots_of_no_room (requests : List (Request κ α)) :
    snapshots 0 requests [] = requests.map fun request => ⟨⟨request.call, request.nothing⟩, []⟩ := by
  induction requests with
  | nil => rfl
  | cons request rest ih =>
      have empty : after 0 [] request = [] :=
        List.length_eq_zero_iff.mp (Nat.le_zero.mp (after_length_le (Nat.le_refl 0) request))
      have replied : reply [] request = request.nothing := by cases request <;> rfl
      rw [snapshots, empty, replied, ih, List.map_cons]

end Textbook

/-! ## The cache -/

open Lru Textbook

variable {κ α φ : Type}

def unitAnswer : (query : (protocol κ α).Query) → (protocol κ α).Answer query
  | .price _ => (1 : UInt64)
  | .departed _ => ()

theorem unit_priced_answers_at_once (query : (protocol κ α).Query) :
    (unitPriced : Client (protocol κ α) φ) query = .done (unitAnswer query) := by
  cases query <;> rfl

variable [BEq κ] [Hashable κ]

def contents (store : Lru κ α) : List (κ × α) :=
  store.entries.map fun entry => (entry.key, entry.value)

def snapshot (turn : Turn (protocol κ α) (Lru κ α)) : Snapshot κ α :=
  { turn.toExchange with contents := contents turn.state }

theorem find_contents (store : Lru κ α) (key : κ) :
    find? (contents store) key = (store.meaning.find? key).map fun entry => (entry.key, entry.value) := by
  rw [find?, contents, List.find?_map]
  rfl

theorem others_contents (store : Lru κ α) (key : κ) :
    others (contents store) key = (store.meaning.others key).map fun entry => (entry.key, entry.value) := by
  rw [others, contents, List.filter_map]
  rfl

/-- How many values fit into a cache in which everything costs one. -/
def capacity (limit : UInt64) : Nat :=
  if 2 ≤ limit then limit.toNat else 0

structure Comes (request : Request κ α) (limit : UInt64) (visit : Visit (protocol κ α) (Lru κ α) φ request.call)
    (reply : (protocol κ α).Reply request.call) (left : List (κ × α)) : Prop where
  reply : visit.reply = reply
  left : contents visit.state = left
  units : UnitPriced limit visit.state

variable [BEq α] [EquivBEq κ] [LawfulHashable κ] {limit : UInt64} {store : Lru κ α}

omit [LawfulHashable κ] in
theorem get_comes (units : UnitPriced limit store) (capacity : Nat) (key : κ) (memory : φ) :
    Comes (.get key) limit (service.visit (promptly unitAnswer) (.get key) store memory)
      (reply (contents store) (.get key)) (after capacity (contents store) (.get key)) := by
  obtain ⟨outcome, entries, units'⟩ := units.get key
  rw [visit_get]
  refine ⟨?_, ?_, units'⟩
  · show (store.get key).1 = (find? (contents store) key).map (·.2)
    rw [outcome, find_contents, Option.map_map]
    rfl
  · show contents (store.get key).2 = promote (contents store) key
    rw [promote, find_contents, contents, entries, others_contents]
    cases store.meaning.find? key <;> rfl

omit [EquivBEq κ] [LawfulHashable κ] in
theorem peek_comes (units : UnitPriced limit store) (capacity : Nat) (key : κ) (memory : φ) :
    Comes (.peek key) limit (service.visit (promptly unitAnswer) (.peek key) store memory)
      (reply (contents store) (.peek key)) (after capacity (contents store) (.peek key)) := by
  rw [visit_peek]
  refine ⟨?_, rfl, units⟩
  show store.peek? key = (find? (contents store) key).map (·.2)
  rw [units.intact.peek_eq, find_contents, Option.map_map]
  rfl

theorem contains_comes (units : UnitPriced limit store) (capacity : Nat) (key : κ) (memory : φ) :
    Comes (.contains key) limit (service.visit (promptly unitAnswer) (.contains key) store memory)
      (reply (contents store) (.contains key)) (after capacity (contents store) (.contains key)) := by
  rw [visit_contains]
  refine ⟨?_, rfl, units⟩
  show store.contains key = (find? (contents store) key).isSome
  rw [units.intact.contains_eq, find_contents, Option.isSome_map]

theorem remove_comes (units : UnitPriced limit store) (capacity : Nat) (key : κ) (memory : φ) :
    Comes (.remove key) limit (service.visit (promptly unitAnswer) (.remove key) store memory)
      (reply (contents store) (.remove key)) (after capacity (contents store) (.remove key)) := by
  obtain ⟨outcome, entries, units'⟩ := units.remove key
  rw [visit_remove]
  refine ⟨?_, ?_, units'⟩
  · show (store.remove key).1.map (·.value) = (find? (contents store) key).map (·.2)
    rw [outcome, find_contents, Option.map_map]
    rfl
  · show contents (store.remove key).2 = others (contents store) key
    rw [contents, entries, others_contents]

/-- Making room by costs leaves as many of the others as the textbook leaves after counting. -/
theorem put_admitted (units : UnitPriced limit store) (roomy : 2 ≤ limit) (key : κ) (value : α) (memory : φ) :
    Comes (.put key value) limit (service.visit (promptly unitAnswer) (.put key value) store memory)
      (reply (contents store) (.put key value)) (put limit.toNat (contents store) key value) := by
  obtain ⟨⟨evicted, admitted⟩, entries, units'⟩ := units.insert roomy key value
  have inserted : store.insert (unit key value) =
      (.admitted (store.meaning.find? key) evicted, (store.insert (unit key value)).2) := Prod.ext admitted rfl
  rw [visit_put (promptly unitAnswer) (units.intact.exchange_of_admitted inserted)]
  have room : 0 < limit.toNat := Nat.lt_of_lt_of_le Nat.zero_lt_two (UInt64.le_iff_toNat_le.mp roomy)
  have fits : (others (contents store) key).length ≤ limit.toNat := by
    rw [others_contents, List.length_map]
    exact (List.length_filter_le _ _).trans units.length_le
  refine ⟨?_, ?_, units'⟩
  · show _ = (find? (contents store) key).map (·.2)
    rw [find_contents, Option.map_map]
    rfl
  · rw [put_eq room fits, contents, entries, List.map_cons, List.map_take, others_contents]
    rfl

omit [EquivBEq κ] [LawfulHashable κ] in
theorem put_refused (units : UnitPriced limit store) (narrow : limit ≤ 1) (key : κ) (value : α) (memory : φ) :
    Comes (.put key value) limit (service.visit (promptly unitAnswer) (.put key value) store memory)
      (Request.put key value).nothing (contents store) := by
  have refused : store.exchange (unit key value) = (([⟨unit key value, .refused⟩], none), store) := by
    rw [exchange, units.insert_refused narrow]
  rw [visit_put (promptly unitAnswer) refused]
  exact ⟨rfl, rfl, units⟩

theorem put_comes (units : UnitPriced limit store) (fits : (contents store).length ≤ capacity limit) (key : κ)
    (value : α) (memory : φ) :
    Comes (.put key value) limit (service.visit (promptly unitAnswer) (.put key value) store memory)
      (reply (contents store) (.put key value)) (after (capacity limit) (contents store) (.put key value)) := by
  rw [capacity] at fits ⊢
  split at fits
  · rename_i roomy
    rw [if_pos roomy]
    exact put_admitted units roomy key value memory
  · -- Nothing fits, so nothing is there, and there is nothing to reply with.
    rename_i narrow
    have atMostOne : limit ≤ 1 :=
      UInt64.le_iff_toNat_le.mpr (Nat.le_of_lt_succ (UInt64.lt_iff_toNat_lt.mp (UInt64.not_le.mp narrow)))
    have refused := put_refused units atMostOne key value memory
    have empty : contents store = [] := List.length_eq_zero_iff.mp (Nat.le_zero.mp fits)
    rw [if_neg narrow, empty]
    rw [empty] at refused
    exact refused

theorem comes_to_textbook (units : UnitPriced limit store) (fits : (contents store).length ≤ capacity limit)
    (request : Request κ α) (memory : φ) :
    Comes request limit (service.visit (promptly unitAnswer) request.call store memory)
      (reply (contents store) request) (after (capacity limit) (contents store) request) := by
  cases request with
  | put key value => exact put_comes units fits key value memory
  | get key => exact get_comes units _ key memory
  | peek key => exact peek_comes units _ key memory
  | contains key => exact contains_comes units _ key memory
  | remove key => exact remove_comes units _ key memory

/-! ## One call after the other -/

theorem turns_of_textbook (requests : List (Request κ α)) {store : Lru κ α} (units : UnitPriced limit store)
    (fits : (contents store).length ≤ capacity limit) (memory : φ) :
    (service.turns (promptly unitAnswer) (requests.map Request.call) memory store).map snapshot =
      snapshots (capacity limit) requests (contents store) := by
  induction requests generalizing store memory with
  | nil => rfl
  | cons request rest ih =>
      obtain ⟨replied, left, units'⟩ := comes_to_textbook units fits request memory
      have fits' := after_length_le fits request
      rw [← left] at fits'
      rw [snapshots, ← replied, ← left]
      exact congrArg _ (ih units' fits' _)

/-- A cache in which everything costs one. Whatever is called for, it replies and ends as it does call by call. With a
limit of two or more every reply is that of the textbook cache with room for so many, and after every call there are
the same keys and values in the same order. With less every put is replied to with nothing, and nothing is ever in it. -/
theorem unit_priced_cache_is_textbook_cache (limit : UInt64) (requests : List (Request κ α)) (memory : φ) :
    let calls := requests.map Request.call
    let turns := service.turns (promptly unitAnswer) calls memory (ofLimit limit)
    (∃ patience ending,
      service.converse unitPriced patience (Script.each [] calls) memory (ofLimit limit) = some ending ∧
        ending.result = turns.map Turn.toExchange ∧
        ending.state = (turns.map Turn.state).getLastD (ofLimit limit)) ∧
    (2 ≤ limit → turns.map snapshot = snapshots limit.toNat requests []) ∧
    (limit ≤ 1 → turns.map snapshot = requests.map fun request => ⟨⟨request.call, request.nothing⟩, []⟩) := by
  intro calls turns
  have units : UnitPriced limit (ofLimit limit : Lru κ α) := of_limit_unit_priced limit
  have textbook : turns.map snapshot = snapshots (capacity limit) requests [] :=
    turns_of_textbook requests units (Nat.zero_le _) memory
  refine ⟨?_, ?_, ?_⟩
  · obtain ⟨patience, conversed⟩ := converse_of_prompt unit_priced_answers_at_once memory (ofLimit limit : Lru κ α)
      (Script.each [] calls)
    obtain ⟨exchanged, last⟩ := service_implements.attend_each (promptly unitAnswer) calls [] memory
      (ofLimit limit : Lru κ α)
    exact ⟨patience, _, conversed, exchanged, last⟩
  · intro roomy
    rw [textbook, capacity, if_pos roomy]
  · intro narrow
    have less : ¬ 2 ≤ limit := UInt64.not_le.mpr (UInt64.lt_of_le_of_lt narrow (show (1 : UInt64) < 2 by decide))
    rw [textbook, capacity, if_neg less, snapshots_of_no_room]

/-- In a full cache a value that is put under a key that it has costs no other one its place. The next new key costs the
place of the one that was not looked up. A cache with a limit of one refuses whatever is put. -/
theorem present_key_takes_no_room :
    let requests : List (Request Nat Nat) := [.put 1 10, .put 2 20, .put 1 11, .get 2, .peek 1, .put 3 30, .remove 2]
    let turns := service.turns (promptly unitAnswer) (requests.map Request.call) () (ofLimit 2)
    let refused : List (Request Nat Nat) := [.put 1 10, .contains 1]
    turns.map snapshot =
        [⟨⟨.put 1 10, none⟩, [(1, 10)]⟩, ⟨⟨.put 2 20, none⟩, [(2, 20), (1, 10)]⟩,
          ⟨⟨.put 1 11, some 10⟩, [(1, 11), (2, 20)]⟩, ⟨⟨.get 2, some 20⟩, [(2, 20), (1, 11)]⟩,
          ⟨⟨.peek 1, some 11⟩, [(2, 20), (1, 11)]⟩, ⟨⟨.put 3 30, none⟩, [(3, 30), (2, 20)]⟩,
          ⟨⟨.remove 2, some 20⟩, [(3, 30)]⟩] ∧
      (service.turns (promptly unitAnswer) (refused.map Request.call) () (ofLimit 1)).map snapshot =
        [⟨⟨.put 1 10, none⟩, []⟩, ⟨⟨.contains 1, false⟩, []⟩] := by
  intro requests turns refused
  obtain ⟨_, roomy, _⟩ := unit_priced_cache_is_textbook_cache 2 requests ()
  obtain ⟨_, _, narrow⟩ := unit_priced_cache_is_textbook_cache 1 refused ()
  exact ⟨roomy (by decide), narrow (by decide)⟩

end Cache

end MemoryBudget
