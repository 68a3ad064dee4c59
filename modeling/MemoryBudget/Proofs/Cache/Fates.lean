import MemoryBudget.Cache.Clients
import MemoryBudget.Proofs.Cache.Chronicle
import MemoryBudget.Proofs.Cache.Numbering
import Mathlib

/-!
# What becomes of values

Once the outermost call has returned, the value of each put is in exactly one situation, and it was reported
exactly once if it has left. Puts are told apart by their numbers.
-/

set_option autoImplicit false

namespace MemoryBudget

namespace Cache

open Lru

variable {κ α φ β : Type} [BEq κ] [Hashable κ] [BEq α]

def tally (said : List (Utterance (protocol κ α))) (situation : Situation) : Nat :=
  (said.flatMap settles).countP (·.1 = situation)

/-- All situations that the value with this number is in: the one of being resident, and one for each time that it
was told, removed or refreshed. -/
def situations (said : List (Utterance (protocol κ (Numbered α)))) (store : Lru κ (Numbered α)) (number : Nat) :
    List Situation :=
  ((store.entries.map fun entry => (Situation.resident, entry.value)) ++ said.flatMap settles).filterMap
    fun account => if account.2.number = number then some account.1 else none

/-- What is to be found in a dialogue about the entry with which a value was put. -/
def Circumstances (said : List (Utterance (protocol κ (Numbered α)))) (store : Lru κ (Numbered α))
    (wasResident : Nat → Prop) (entry : Entry κ (Numbered α)) : Situation → Prop
  | .resident => entry ∈ store.entries
  | .refused => .asked (.departed ⟨entry, .refused⟩) ∈ said ∧ ¬ wasResident entry.value.number
  | .displaced =>
      ∃ key value, Supersedes said key value entry ∧ .asked (.departed ⟨{ entry with key := key }, .displaced⟩) ∈ said ∧
        .replied (.put key value) (some entry.value) ∈ said ∧ (entry.value != value) = true ∧
          .refused ∉ situations said store value.number
  | .evicted => .asked (.departed ⟨entry, .evicted⟩) ∈ said
  | .removed => ∃ key, (entry.key == key) = true ∧ .replied (.remove key) (some entry.value) ∈ said
  | .refreshed =>
      ∃ key value, Supersedes said key value entry ∧ .replied (.put key value) (some entry.value) ∈ said ∧
        (entry.value != value) = false ∧ .refused ∉ situations said store value.number

def WasResident (client : Client (protocol κ (Numbered α)) φ)
    (first last : Moment (service (κ := κ) (α := Numbered α)) φ β)
    (said : List (Utterance (protocol κ (Numbered α)))) (number : Nat) : Prop :=
  ∃ before moment after, first.Leads client before moment ∧ moment.Leads client after last ∧
    before ++ after = said ∧ ∃ entry ∈ moment.state.entries, entry.value.number = number

omit [BEq κ] [Hashable κ] in
/-- A settlement is a departure, a removal or a refreshment. -/
theorem settled_cases {said : List (Utterance (protocol κ α))} {situation : Situation} {value : α}
    (member : (situation, value) ∈ said.flatMap settles) :
    (∃ entry cause, .asked (.departed ⟨entry, cause⟩) ∈ said ∧ entry.value = value ∧ cause.situation = situation) ∨
    (situation = .removed ∧ ∃ key, .replied (.remove key) (some value) ∈ said) ∨
    (situation = .refreshed ∧ ∃ key later, .replied (.put key later) (some value) ∈ said ∧
      (value != later) = false) := by
  obtain ⟨utterance, heard, settled⟩ := List.mem_flatMap.mp member
  cases utterance with
  | called request => exact absurd settled List.not_mem_nil
  | answered query answer => exact absurd settled List.not_mem_nil
  | asked query =>
      cases query with
      | price value => exact absurd settled List.not_mem_nil
      | departed departure =>
          cases List.mem_singleton.mp settled
          exact Or.inl ⟨departure.entry, departure.cause, heard, rfl, rfl⟩
  | replied request reply =>
      cases request with
      | put key later =>
          cases reply with
          | none => exact absurd settled List.not_mem_nil
          | some previous =>
              rw [settles] at settled
              split at settled
              · exact absurd settled List.not_mem_nil
              · rename_i equal
                cases List.mem_singleton.mp settled
                exact Or.inr (Or.inr ⟨rfl, key, later, heard, Bool.eq_false_iff.mpr equal⟩)
      | remove key =>
          cases reply with
          | none => exact absurd settled List.not_mem_nil
          | some value =>
              cases List.mem_singleton.mp settled
              exact Or.inr (Or.inl ⟨rfl, key, heard⟩)
      | _ => exact absurd settled List.not_mem_nil

omit [BEq κ] [Hashable κ] in
/-- Whatever is settled has left. -/
theorem settled_not_resident {said : List (Utterance (protocol κ α))} {account : Situation × α}
    (member : account ∈ said.flatMap settles) : account.1 ≠ .resident := by
  obtain ⟨situation, value⟩ := account
  rcases settled_cases member with ⟨_, cause, _, _, rfl⟩ | ⟨rfl, _⟩ | ⟨rfl, _⟩
  · cases cause <;> exact fun same => nomatch same
  · exact fun same => nomatch same
  · exact fun same => nomatch same

omit [BEq α] in
theorem length_eq_counts {accounts : List (Situation × α)} (left : ∀ account ∈ accounts, account.1 ≠ .resident) :
    accounts.length = accounts.countP (·.1 = .refused) + accounts.countP (·.1 = .displaced) +
      accounts.countP (·.1 = .evicted) + accounts.countP (·.1 = .removed) + accounts.countP (·.1 = .refreshed) := by
  induction accounts with
  | nil => rfl
  | cons account rest ih =>
      have shorter := ih fun other member => left other (List.mem_cons_of_mem _ member)
      have notResident := left account List.mem_cons_self
      simp only [List.countP_cons, List.length_cons]
      obtain ⟨situation, value⟩ := account
      cases situation with
      | resident => exact absurd rfl notResident
      | _ => simp; omega

omit [BEq α] in
/-- Accounts of values with different numbers tell the situation of each of them. -/
theorem filter_of_distinct_numbers {accounts : List (Situation × Numbered α)} {account : Situation × Numbered α}
    (distinct : (accounts.map (·.2.number)).Nodup) (member : account ∈ accounts) :
    accounts.filterMap (fun other => if other.2.number = account.2.number then some other.1 else none) =
      [account.1] := by
  obtain ⟨before, after, rfl⟩ := List.append_of_mem member
  rw [List.map_append, List.map_cons, List.nodup_middle, List.nodup_cons, ← List.map_append] at distinct
  have others : ∀ other ∈ before ++ after,
      (if other.2.number = account.2.number then some other.1 else none) = none := by
    intro other isOther
    have different : ¬ other.2.number = account.2.number := by
      intro same
      rw [← same] at distinct
      exact distinct.1 (List.mem_map_of_mem (f := (·.2.number)) isOther)
    exact if_neg different
  rw [List.filterMap_append, List.filterMap_cons, if_pos rfl,
    List.filterMap_eq_nil_iff.mpr fun other isBefore => others other (List.mem_append_left _ isBefore),
    List.filterMap_eq_nil_iff.mpr fun other isAfter => others other (List.mem_append_right _ isAfter)]
  rfl

theorem accounts_at_rest (said : List (Utterance (protocol κ α))) (store : Lru κ α) :
    accounts said store [] =
      ↑((store.entries.map fun entry => (Situation.resident, entry.value)) ++ said.flatMap settles) := by
  rw [accounts, residents, settlements, certain, List.flatMap_nil, List.append_nil, Multiset.coe_add]

/-! ## Numbered dialogues at rest -/

structure Settled (said : List (Utterance (protocol κ (Numbered α)))) (store : Lru κ (Numbered α)) (puts : Nat) :
    Prop where
  conserved : Conserved said store []
  chronicle : Chronicle said store []
  numbers : numbersOf said = List.range puts

variable {said : List (Utterance (protocol κ (Numbered α)))} {store : Lru κ (Numbered α)} {puts : Nat}

/-- Each number has one account. -/
theorem Settled.one_situation (settled : Settled said store puts) {situation : Situation} {value : Numbered α}
    (member : (situation, value) ∈ accounts said store []) : situations said store value.number = [situation] := by
  rw [accounts_at_rest, Multiset.mem_coe] at member
  refine filter_of_distinct_numbers ?_ member
  have values := settled.conserved.offered
  rw [accounts_at_rest] at values
  have numbers := congrArg (Multiset.map Numbered.number) values
  rw [show unpriced [] = 0 from rfl, zero_add, Multiset.map_map, Multiset.map_coe, Multiset.map_coe, ← numbersOf,
    settled.numbers] at numbers
  exact (Multiset.coe_eq_coe.mp numbers).nodup_iff.mp List.nodup_range

theorem Settled.explained (settled : Settled said store puts) {utterance : Utterance (protocol κ (Numbered α))}
    (heard : utterance ∈ said) : Explained said said (Admitted (accounts said store [])) utterance := by
  have certainly : certain said [] = said := List.append_nil said
  have explained := settled.chronicle.explained utterance (certainly.symm ▸ heard)
  rw [certainly] at explained
  exact explained

/-- What was admitted is not refused. -/
theorem Settled.not_refused (settled : Settled said store puts) {value : Numbered α}
    (admitted : Admitted (accounts said store []) value) : .refused ∉ situations said store value.number := by
  obtain ⟨situation, unrefused, member⟩ := admitted
  rw [settled.one_situation member, List.mem_singleton]
  exact unrefused.symm

/-- Whatever a value is accounted for, there is an entry with which it was put, and the circumstances are right. -/
theorem Settled.circumstances (settled : Settled said store puts) {wasResident : Nat → Prop}
    (kept : ∀ number, wasResident number → .refused ∉ situations said store number) {situation : Situation}
    {value : Numbered α} (member : (situation, value) ∈ accounts said store []) :
    ∃ entry, entry.value = value ∧ Entered said entry ∧ Circumstances said store wasResident entry situation := by
  have one := settled.one_situation member
  rw [accounts_at_rest, Multiset.mem_coe] at member
  rcases List.mem_append.mp member with isResident | isSettled
  · obtain ⟨entry, resident, same⟩ := List.mem_map.mp isResident
    cases same
    exact ⟨entry, rfl, settled.chronicle.entered entry resident, resident⟩
  · rcases settled_cases isSettled with ⟨entry, cause, told, rfl, rfl⟩ | ⟨rfl, key, removed⟩ |
      ⟨rfl, key, later, refreshed, equal⟩
    · have explained := settled.explained told
      cases cause with
      | refused =>
          refine ⟨entry, rfl, explained, told, fun resident => kept _ resident ?_⟩
          rw [one]
          exact List.mem_cons_self
      | displaced =>
          obtain ⟨resident, key, later, rfl, entered, supersedes, unequal, replied⟩ := explained
          exact ⟨resident, rfl, entered, key, later, supersedes, told, replied, unequal,
            settled.not_refused (settled.explained replied).1⟩
      | evicted => exact ⟨entry, rfl, explained, told⟩
    · obtain ⟨entry, rfl, sameKey, entered⟩ := settled.explained removed
      exact ⟨entry, rfl, entered, key, sameKey, removed⟩
    · obtain ⟨admitted, entry, rfl, entered, supersedes⟩ := settled.explained refreshed
      exact ⟨entry, rfl, entered, key, later, supersedes, refreshed, equal, settled.not_refused admitted⟩

/-- Each number belongs to one entry that was put, and its value is in one situation. -/
theorem Settled.fate (settled : Settled said store puts) {wasResident : Nat → Prop}
    (kept : ∀ number, wasResident number → .refused ∉ situations said store number) {number : Nat}
    (issued : number < puts) :
    ∃ entry situation, entry.value.number = number ∧ Entered said entry ∧
      situations said store number = [situation] ∧ Circumstances said store wasResident entry situation := by
  have isNumber : number ∈ numbersOf said := by
    rw [settled.numbers]
    exact List.mem_range.mpr issued
  obtain ⟨value, isOffered, rfl⟩ := List.mem_map.mp isNumber
  have accounted : value ∈ (accounts said store []).map Prod.snd := by
    have values := settled.conserved.offered
    rw [show unpriced [] = 0 from rfl, zero_add] at values
    rw [← values]
    exact isOffered
  obtain ⟨⟨situation, _⟩, member, rfl⟩ := Multiset.mem_map.mp accounted
  obtain ⟨entry, same, entered, circumstances⟩ := settled.circumstances kept member
  exact ⟨entry, situation, congrArg Numbered.number same, entered, settled.one_situation member, circumstances⟩

theorem total_at_rest {said : List (Utterance (protocol κ α))} {store : Lru κ α}
    (conserved : Conserved said store []) :
    (offered said).length = store.count + (tally said .refused + tally said .displaced + tally said .evicted +
      tally said .removed + tally said .refreshed) := by
  have values := congrArg Multiset.card conserved.offered
  rw [show unpriced [] = 0 from rfl, zero_add, Multiset.card_map, accounts_at_rest, Multiset.coe_card,
    Multiset.coe_card, List.length_append, List.length_map, ← conserved.intact.exact_count] at values
  rw [values, length_eq_counts fun _ member => settled_not_resident member]
  rfl

variable [EquivBEq κ] [LawfulHashable κ]

/-- What was resident once is never refused. -/
theorem kept_of_leads {client : Client (protocol κ (Numbered α)) φ} {script : Script (protocol κ (Numbered α)) φ β}
    {memory : φ} {limit : UInt64} {moment : Moment (service (κ := κ) (α := Numbered α)) φ β}
    (settled : Settled said moment.state puts) (rest : moment.role = .client) {number : Nat}
    (resident : WasResident client (Moment.opening script memory (Lru.ofLimit limit)) moment said number) :
    .refused ∉ situations said moment.state number := by
  obtain ⟨before, between, after, earlier, later, rfl, entry, member, rfl⟩ := resident
  have isResident : Admitted (accounts before between.state between.works) entry.value :=
    ⟨.resident, (fun same => nomatch same), Multiset.mem_add.mpr (Or.inl (List.mem_map.mpr ⟨entry, member, rfl⟩))⟩
  have admitted := admitted_of_leads later (conserved_of_leads earlier).intact isResident
  rw [Moment.works_at_rest rest] at admitted
  exact settled.not_refused admitted

/-- Once the outermost call has returned, each value that was put is in exactly one situation, and was told of or
handed out once if it has left; hence the number of puts. -/
theorem every_put_is_settled_once (limit : UInt64) (client : Client (protocol κ α) φ)
    (script : Script (protocol κ α) φ β) (memory : φ) (steps : Nat)
    (rest : ((Moment.opening script memory (Lru.ofLimit limit) : Moment service φ β).advance client steps).2.role =
      .client) :
    let dialogue := (Moment.opening script memory (Lru.ofLimit limit) : Moment service φ β).advance client steps
    let puts := (offered dialogue.1).length
    puts = dialogue.2.state.count + (tally dialogue.1 .refused + tally dialogue.1 .displaced +
      tally dialogue.1 .evicted + tally dialogue.1 .removed + tally dialogue.1 .refreshed) ∧
    -- The same dialogue, in which the puts are numbered in the order of the calls.
    ∃ said moment,
      let first := Moment.opening (numbering.script id script) (memory, 0) (Lru.ofLimit limit)
      first.Leads (numbering.client client) said moment ∧ moment.role = .client ∧ said.map numbering.bare = dialogue.1 ∧
      dialogue.2.state.entries = moment.state.entries.map (Entry.relabel Numbered.value) ∧
      numbersOf said = List.range puts ∧
      ∀ number < puts, ∃ entry situation, entry.value.number = number ∧ Entered said entry ∧
        situations said moment.state number = [situation] ∧
          Circumstances said moment.state (WasResident (numbering.client client) first moment said) entry
            situation := by
  intro dialogue puts
  have leads := Moment.leads_advance client steps
    (Moment.opening script memory (Lru.ofLimit limit) : Moment service φ β)
  have conserved := conserved_of_leads leads
  rw [Moment.works_at_rest rest] at conserved
  obtain ⟨said, moment, taken, leads', same, bare, marked⟩ := numberingCommutes.leads (of_limit_relabels limit) leads
  have rest' := same.role.mpr rest
  have conserved' := conserved_of_leads leads'
  have chronicle' := chronicle_of_leads leads'
  rw [Moment.works_at_rest rest'] at conserved' chronicle'
  have numbers := numbers_of_marked marked
  have issued : taken = puts := by
    have length := congrArg List.length numbers
    rw [numbersOf, List.length_map, List.length_range] at length
    rw [← length, show puts = (offered dialogue.1).length from rfl, ← bare, offered_bare, List.length_map]
  rw [issued] at numbers
  have settled : Settled said moment.state puts := ⟨conserved', chronicle', numbers⟩
  exact ⟨total_at_rest conserved, said, moment, leads', rest', bare, same.alike.entries, numbers,
    fun number issued => settled.fate (fun _ resident => kept_of_leads settled rest' resident) issued⟩

/-- Five puts, and a sixth from inside an eviction: one value is resident and each of the others left another way. -/
theorem six_puts_in_six_situations :
    let script : Script (protocol Nat Nat) (Diary Nat Nat) (Option Nat) := do
      let _ ← Script.ask (P := protocol Nat Nat) (.put 1 6)
      let _ ← Script.ask (P := protocol Nat Nat) (.put 2 6)
      let _ ← Script.ask (P := protocol Nat Nat) (.put 1 3)
      let _ ← Script.ask (P := protocol Nat Nat) (.put 2 7)
      let _ ← Script.ask (P := protocol Nat Nat) (.remove 1)
      Script.ask (P := protocol Nat Nat) (.put 3 99)
    let client := demoter UInt64.ofNat fun value => if 1 < value then some (value / 2) else none
    let dialogue := (Moment.opening script Diary.empty (Lru.ofLimit 10) : Moment service _ _).advance client 28
    offered dialogue.1 = [6, 6, 3, 3, 7, 99] ∧ dialogue.2.state.count = 1 ∧
      tally dialogue.1 .refused = 1 ∧ tally dialogue.1 .displaced = 1 ∧ tally dialogue.1 .evicted = 1 ∧
        tally dialogue.1 .removed = 1 ∧ tally dialogue.1 .refreshed = 1 := by
  intro script client dialogue
  obtain ⟨total, _⟩ := every_put_is_settled_once 10 client script Diary.empty 28 (by cbv)
  have puts : offered dialogue.1 = [6, 6, 3, 3, 7, 99] := by cbv
  have refused : tally dialogue.1 .refused = 1 := by cbv
  have displaced : tally dialogue.1 .displaced = 1 := by cbv
  have evicted : tally dialogue.1 .evicted = 1 := by cbv
  have removed : tally dialogue.1 .removed = 1 := by cbv
  have refreshed : tally dialogue.1 .refreshed = 1 := by cbv
  rw [refused, displaced, evicted, removed, refreshed, puts,
    show [6, 6, 3, 3, 7, 99].length = 1 + (1 + 1 + 1 + 1 + 1) from rfl] at total
  have counted := Nat.add_right_cancel total
  refine ⟨puts, ?_, refused, displaced, evicted, removed, refreshed⟩
  rw [← counted]

end Cache

end MemoryBudget
