import MemoryBudget.Cache.Clients
import MemoryBudget.Proofs.Cache.Steps
import MemoryBudget.Proofs.Dialogue.Frugality

/-!
# Thrifty clients of caches

A client that is told of a departure is thrifty if the values that it puts there cost less than the one that left. The
costs are those that were answered: of what left when it was admitted, and of what is put when it is priced.
-/

set_option autoImplicit false

namespace MemoryBudget

namespace RecencyList

variable {κ α : Type}

theorem total_cost_perm {entries entries' : List (Entry κ α)} (perm : entries.Perm entries') :
    totalCost entries = totalCost entries' := by
  induction perm with
  | nil => rfl
  | cons entry _ ih => rw [total_cost_cons, total_cost_cons, ih]
  | swap entry other rest =>
      simp only [total_cost_cons]
      omega
  | trans _ _ ih ih' => exact ih.trans ih'

theorem total_cost_reverse (entries : List (Entry κ α)) : totalCost entries.reverse = totalCost entries :=
  total_cost_perm entries.reverse_perm

theorem total_cost_filter_le (keep : Entry κ α → Bool) (entries : List (Entry κ α)) :
    totalCost (entries.filter keep) ≤ totalCost entries := by
  induction entries with
  | nil => exact Nat.le_refl _
  | cons entry rest ih =>
      rw [List.filter_cons, total_cost_cons]
      split
      · rw [total_cost_cons]
        omega
      · omega

end RecencyList

namespace Cache

open Lru RecencyList

variable {κ α φ β : Type}

/-- From inside a departure values may be put, looked at and taken out. -/
def tariff (κ α : Type) : Tariff (protocol κ α) where
  toll
    | .put _ _ => .due 0
    | .get _ | .peek _ | .remove _ | .contains _ | .usage => .free
    | .trimTo _ | .clear | .trim _ | .rescale _ => .barred
  weight
    | .price _ => 0
    | .departed departure => departure.entry.cost.toNat
  fee
    | .price _, cost => .due (UInt64.toNat cost)
    | .departed _, _ => .free

theorem tariff_toll_amount (request : Call κ α) : ((tariff κ α).toll request).amount = 0 := by
  cases request <;> rfl

def leaving (departures : List (Departure κ α)) : Nat :=
  totalCost (departures.map (·.entry))

theorem leaving_append (departures others : List (Departure κ α)) :
    leaving (departures ++ others) = leaving departures + leaving others := by
  rw [leaving, List.map_append, total_cost_append]
  rfl

theorem leaving_evictions (entries : List (Entry κ α)) : leaving (evictions entries) = totalCost entries := by
  rw [leaving, evictions, List.map_map]
  exact congrArg totalCost (List.map_id entries)

theorem leaving_displacement [BEq α] (previous : Option (Entry κ α)) (key : κ) (value : α) :
    leaving (displacement previous key value) ≤ totalCost previous.toList := by
  cases previous with
  | none => exact Nat.le_refl _
  | some entry =>
      rw [displacement, Option.filter_some]
      split
      · exact Nat.le_refl _
      · exact Nat.zero_le _

def Work.held {request : Call κ α} (work : Work request) : Nat :=
  leaving work.remaining

def heft [BEq κ] [Hashable κ] {request : Call κ α} :
    Progress (Work request) ((protocol κ α).Reply request) × Lru κ α → Nat
  | (.replied _, store) => totalCost store.entries
  | (.waiting work, store) => totalCost store.entries + (tariff κ α).weight work.query + work.held

section Scale

variable [BEq κ] [Hashable κ]

theorem heft_tell {request : Call κ α} (reply : (protocol κ α).Reply request) (departures : List (Departure κ α))
    (store : Lru κ α) : heft (tell reply departures, store) = totalCost store.entries + leaving departures := by
  cases departures with
  | nil => rfl
  | cons departure rest => exact Nat.add_assoc _ _ _

theorem Starts.heft_le {store : Lru κ α} {request : Call κ α}
    {progressed : Progress (Work request) ((protocol κ α).Reply request) × Lru κ α}
    (starts : Starts store request progressed) : heft progressed ≤ totalCost store.entries := by
  cases starts with
  | prices key value => exact Nat.le_refl _
  | replies request quiet reply same => exact Nat.le_of_eq (total_cost_perm same)
  | @removes store' key rest =>
      show totalCost store'.entries ≤ totalCost store.entries
      rw [rest]
      exact total_cost_filter_le _ _
  | evicts request quiet reply parted =>
      refine Nat.le_of_eq ((heft_tell reply _ _).trans ?_)
      rw [leaving_evictions, parted, total_cost_append, total_cost_reverse]

variable [BEq α]

theorem Resumes.heft_le [EquivBEq κ] {store : Lru κ α} (intact : Intact store) {request : Call κ α} {work : Work request}
    {answer : (protocol κ α).Answer work.query}
    {progressed : Progress (Work request) ((protocol κ α).Reply request) × Lru κ α}
    (resumes : Resumes store work answer progressed) :
    heft progressed ≤ totalCost store.entries + work.held + ((tariff κ α).fee work.query answer).amount := by
  cases resumes with
  | refuses key value cost => exact Nat.le_refl _
  | @admits store' evicted kept key value cost fresh parted intact' =>
      have whole : totalCost store.entries =
          totalCost (store.meaning.find? key).toList + (totalCost kept + totalCost evicted) := by
        rw [total_cost_perm (perm_find_others intact.distinct_keys key), total_cost_append,
          show store.entries.filter (!·.key == key) = kept ++ evicted.reverse from parted, total_cost_append,
          total_cost_reverse]
        rfl
      have displaced := leaving_displacement (store.meaning.find? key) key value
      refine Nat.le_trans (Nat.le_of_eq (heft_tell _ _ store')) ?_
      rw [leaving_append, leaving_evictions, fresh, total_cost_cons]
      show cost.toNat + totalCost kept + (_ + totalCost evicted) ≤ totalCost store.entries + 0 + cost.toNat
      omega
  | tells departure rest reply heard => exact Nat.le_of_eq (heft_tell reply rest store)

theorem service_heft {request : Call κ α} (progressed : Progress (Work request) ((protocol κ α).Reply request) × Lru κ α) :
    service.heft (tariff κ α) (fun store : Lru κ α => totalCost store.entries) Work.held progressed =
      heft progressed := by
  obtain ⟨progress, store⟩ := progressed
  cases progress <;> rfl

def scale [EquivBEq κ] [LawfulHashable κ] : Scale (tariff κ α) service where
  InOrder := Intact
  load store := totalCost store.entries
  held := Work.held
  replies request store free := by
    cases request with
    | get _ | peek _ | remove _ | contains _ | usage => exact ⟨_, rfl⟩
    | put _ _ | trimTo _ | clear | trim _ | rescale _ => cases free
  started request store intact := by
    have starts := start_meets intact request
    refine ⟨starts.intact intact, Nat.le_trans (Nat.le_of_eq (service_heft _)) ?_⟩
    exact Nat.le_trans starts.heft_le (Nat.le_add_right _ _)
  resumed work answer store intact := by
    have resumes := resume_meets intact work answer
    exact ⟨resumes.intact intact, Nat.le_trans (Nat.le_of_eq (service_heft _)) (resumes.heft_le intact)⟩

/-! ## Clients that put something cheaper back -/

def Work.owed (price : α → UInt64) {request : Call κ α} : Work request → Nat
  | .pricing _ value => (price value).toNat
  | .telling _ _ _ => 0

omit [BEq κ] [Hashable κ] [BEq α] in
theorem owed_of_telling {price : α → UInt64} {request : Call κ α} {reply : (protocol κ α).Reply request}
    {departures : List (Departure κ α)} {later : Work request} (waits : tell reply departures = .waiting later) :
    later.owed price = 0 := by
  cases departures with
  | nil => cases waits
  | cons departure rest =>
      cases waits
      rfl

def estimate (price : α → UInt64) : Estimate (tariff κ α) service where
  expected
    | .price value, cost => cost = price value
    | .departed _, _ => True
  quote
    | .put _ value => (price value).toNat
    | _ => 0
  owed := Work.owed price
  covered request := Nat.le_trans (Nat.le_of_eq (tariff_toll_amount request)) (Nat.zero_le _)
  started work store store' _ := by
    cases work with
    | pricing key value => exact Nat.le_of_eq (Nat.zero_add _)
    | telling departure rest reply => exact Nat.le_trans (Nat.le_of_eq (tariff_toll_amount _)) (Nat.zero_le _)
  payable work answer expected := by
    cases work with
    | pricing key value =>
        cases expected
        exact ⟨nofun, Nat.le_refl _⟩
    | telling departure rest reply => exact ⟨nofun, Nat.le_refl _⟩
  resumed work later answer store store' expected progressed := by
    cases work with
    | pricing key value =>
        cases expected
        exact Nat.le_of_eq (congrArg ((price value).toNat + ·) (owed_of_telling (Prod.mk.inj progressed).1))
    | telling departure rest reply =>
        exact Nat.le_of_eq (congrArg (0 + ·) (owed_of_telling (Prod.mk.inj progressed).1))

def Worth (price : α → UInt64) (entry : Entry κ α) : Prop :=
  entry.cost = price entry.value

def Work.Worth (price : α → UInt64) {request : Call κ α} : Work request → Prop
  | .pricing _ _ => True
  | .telling departure rest _ => ∀ other ∈ departure :: rest, Cache.Worth price other.entry

structure Fair (price : α → UInt64) {request : Call κ α}
    (progressed : Progress (Work request) ((protocol κ α).Reply request) × Lru κ α) : Prop where
  entries : ∀ entry ∈ progressed.2.entries, Worth price entry
  work : ∀ work, progressed.1 = .waiting work → work.Worth price

omit [BEq α] in
theorem tell_fair {price : α → UInt64} {store : Lru κ α} (worth : ∀ entry ∈ store.entries, Worth price entry)
    {departures : List (Departure κ α)} (told : ∀ departure ∈ departures, Worth price departure.entry)
    {request : Call κ α} (reply : (protocol κ α).Reply request) : Fair price (tell reply departures, store) := by
  refine ⟨worth, ?_⟩
  intro work waits
  cases departures with
  | nil => cases waits
  | cons departure rest =>
      cases waits
      exact told

omit [BEq α] in
theorem Starts.fair {price : α → UInt64} {store : Lru κ α} {request : Call κ α}
    {progressed : Progress (Work request) ((protocol κ α).Reply request) × Lru κ α}
    (starts : Starts store request progressed) (worth : ∀ entry ∈ store.entries, Worth price entry) :
    Fair price progressed := by
  cases starts with
  | prices key value =>
      refine ⟨worth, ?_⟩
      intro work waits
      cases waits
      trivial
  | replies request quiet reply same =>
      exact ⟨fun entry member => worth entry (same.subset member), fun _ waits => nomatch waits⟩
  | @removes store' key rest =>
      refine ⟨?_, fun _ waits => nomatch waits⟩
      intro entry member
      rw [show store'.entries = store.meaning.others key from rest] at member
      exact worth entry (List.mem_of_mem_filter member)
  | evicts request quiet reply parted =>
      rw [parted] at worth
      refine tell_fair (fun entry member => worth entry (List.mem_append_left _ member)) ?_ reply
      intro departure member
      obtain ⟨entry, evicted, rfl⟩ := List.mem_map.mp member
      exact worth entry (List.mem_append_right _ (List.mem_reverse.mpr evicted))

theorem Resumes.fair {price : α → UInt64} {store : Lru κ α} {request : Call κ α} {work : Work request}
    {answer : (protocol κ α).Answer work.query}
    {progressed : Progress (Work request) ((protocol κ α).Reply request) × Lru κ α}
    (resumes : Resumes store work answer progressed) (worth : ∀ entry ∈ store.entries, Worth price entry)
    (told : work.Worth price) (expected : (estimate price).expected work.query answer) : Fair price progressed := by
  cases resumes with
  | refuses key value cost tooCostly =>
      have offered : Worth price ⟨key, value, cost⟩ := expected
      exact tell_fair worth (List.forall_mem_singleton.mpr offered) _
  | @admits store' evicted kept key value cost fresh parted intact' =>
      have others : ∀ entry ∈ kept ++ evicted.reverse, Worth price entry := by
        rw [← parted]
        exact fun entry member => worth entry (List.mem_of_mem_filter member)
      refine tell_fair ?_ ?_ _
      · rw [fresh]
        exact List.forall_mem_cons.mpr ⟨expected, fun entry member => others entry (List.mem_append_left _ member)⟩
      · intro departure member
        rcases List.mem_append.mp member with displaced | evicted
        · obtain ⟨entry, previous, rfl⟩ := List.mem_map.mp displaced
          have found := (Option.filter_eq_some_iff.mp (Option.mem_toList.mp previous)).1
          exact worth entry (List.mem_of_find?_eq_some found)
        · obtain ⟨entry, coldest, rfl⟩ := List.mem_map.mp evicted
          exact others entry (List.mem_append_right _ (List.mem_reverse.mpr coldest))
  | tells departure rest reply heard =>
      exact tell_fair worth (fun other member => told other (List.mem_cons_of_mem _ member)) reply

theorem Fair.pending {price : α → UInt64} {request : Call κ α}
    {progressed : Progress (Work request) ((protocol κ α).Reply request) × Lru κ α} (fair : Fair price progressed)
    {works : List (Service.Pending (service (κ := κ) (α := α)))}
    (others : ∀ pending ∈ works, Work.Worth price pending.work) :
    ∀ pending ∈ service.outstanding progressed.1 ++ works, Work.Worth price pending.work := by
  obtain ⟨progress, store⟩ := progressed
  cases progress with
  | replied reply => exact others
  | waiting work => exact List.forall_mem_cons.mpr ⟨fair.work work rfl, others⟩

variable [EquivBEq κ] [LawfulHashable κ]

/-- As long as values are priced by a function, all that is told about costs what it is worth. -/
theorem worth_of_leads {price : α → UInt64} {client : Client (protocol κ α) φ} {script : Script (protocol κ α) φ β}
    {memory : φ} {limit : UInt64} {said : List (Utterance (protocol κ α))} {moment : Moment service φ β}
    (leads : (Moment.opening script memory (Lru.ofLimit limit)).Leads client said moment)
    (expected : ∀ query answer, .answered query answer ∈ said → (estimate (κ := κ) price).expected query answer) :
    ∀ pending ∈ moment.works, Work.Worth price pending.work := by
  have keeps := leads.preserves
    (fun said store works => (∀ query answer, .answered query answer ∈ said → (estimate price).expected query answer) →
      Intact store ∧ (∀ entry ∈ store.entries, Worth price entry) ∧ ∀ pending ∈ works, Work.Worth price pending.work)
    (fun _ => ⟨of_limit_intact limit, nofun, nofun⟩) ?_ ?_
  · exact (keeps expected).2.2
  · intro said store works request ih expected
    obtain ⟨intact, worth, others⟩ := ih fun query answer member => expected query answer (List.mem_append_left _ member)
    have starts := start_meets intact request
    exact ⟨starts.intact intact, (starts.fair worth).entries, (starts.fair worth).pending others⟩
  · intro said store works request work answer ih expected
    obtain ⟨intact, worth, pending⟩ := ih fun query answer member => expected query answer (List.mem_append_left _ member)
    obtain ⟨told, others⟩ := List.forall_mem_cons.mp pending
    have resumes := resume_meets intact work answer
    have fair := resumes.fair worth told
      (expected _ answer (List.mem_append_right _ List.mem_cons_self))
    exact ⟨resumes.intact intact, fair.entries, fair.pending others⟩

/-- Putting something cheaper back is thrifty. -/
theorem demoter_thrifty {price : α → UInt64} {cheaper? : α → Option α}
    (cheapens : ∀ value cheaper, cheaper? value = some cheaper → price cheaper < price value) (limit : UInt64)
    (script : Script (protocol κ α) (Diary κ α) β) (memory : Diary κ α) (said : List (Utterance (protocol κ α)))
    (moment : Moment service (Diary κ α) β)
    (leads : (Moment.opening script memory (Lru.ofLimit limit)).Leads (demoter price cheaper?) said moment) :
    (tariff κ α).Thrifty said := by
  apply (estimate price).thrifty scale ?_ said moment leads
  intro said moment leads expected pending member
  have worth := worth_of_leads leads expected pending member
  obtain ⟨request, work⟩ := pending
  cases work with
  | pricing key value => rfl
  | telling departure rest reply =>
      have cost : departure.entry.cost = price departure.entry.value := worth departure List.mem_cons_self
      refine fun resident usage memory => ?_
      obtain ⟨⟨key, value, _⟩, cause⟩ := departure
      cases cause with
      | refused => trivial
      | displaced => trivial
      | evicted =>
          cases cheap : cheaper? value with
          | none => trivial
          | some cheaper =>
              have lower := UInt64.lt_iff_toNat_lt.mp (cheapens value cheaper cheap)
              rw [← cost] at lower
              exact ⟨lower, fun _ => trivial⟩

end Scale

end Cache

end MemoryBudget
