import MemoryBudget.Proofs.Cache.Conservation

/-!
# What went before

Each departure that a client is told of, and each value that a call hands out, has an explanation in what was said
before: the entry was put and priced, and where it made way for another value, that value was put under the same
key and priced later.
-/

set_option autoImplicit false

namespace MemoryBudget

namespace Cache

open RecencyList Lru

variable {κ α φ β : Type}

structure Entered (said : List (Utterance (protocol κ α))) (entry : Entry κ α) : Prop where
  called : .called (.put entry.key entry.value) ∈ said
  priced : .answered (.price entry.value) entry.cost ∈ said

theorem Entered.mono {said said' : List (Utterance (protocol κ α))} {entry : Entry κ α}
    (entered : Entered said entry) (longer : said ⊆ said') : Entered said' entry :=
  ⟨longer entered.called, longer entered.priced⟩

/-- The value was put under the key of the entry, and its price was answered after the one of the entry. -/
def Supersedes [BEq κ] (said : List (Utterance (protocol κ α))) (key : κ) (value : α) (entry : Entry κ α) : Prop :=
  (entry.key == key) = true ∧ .called (.put key value) ∈ said ∧
    ∃ cost, [.answered (.price entry.value) entry.cost, .answered (.price value) cost].Sublist said

theorem Supersedes.mono [BEq κ] {said said' : List (Utterance (protocol κ α))} {key : κ} {value : α}
    {entry : Entry κ α} (supersedes : Supersedes said key value entry) (longer : said.Sublist said') :
    Supersedes said' key value entry := by
  obtain ⟨sameKey, called, cost, order⟩ := supersedes
  exact ⟨sameKey, longer.subset called, cost, order.trans longer⟩

/-- Why an utterance was to be expected, given all that was said or is certain, and which values were admitted. -/
def Explained [BEq κ] [BEq α] (said heard : List (Utterance (protocol κ α))) (admitted : α → Prop) :
    Utterance (protocol κ α) → Prop
  | .asked (.departed ⟨told, .displaced⟩) =>
      -- The client is told of it under the key that the other value was put under.
      ∃ entry key value, told = { entry with key := key } ∧ Entered said entry ∧ Supersedes said key value entry ∧
        (entry.value != value) = true ∧ .replied (.put key value) (some entry.value) ∈ heard
  | .asked (.departed ⟨entry, _⟩) => Entered said entry
  | .replied (.put key value) (some previous) =>
      admitted value ∧ ∃ entry, entry.value = previous ∧ Entered said entry ∧ Supersedes said key value entry
  | .replied (.remove key) (some value) =>
      ∃ entry, entry.value = value ∧ (entry.key == key) = true ∧ Entered said entry
  | _ => True

theorem Explained.mono [BEq κ] [BEq α] {said said' heard heard' : List (Utterance (protocol κ α))}
    {admitted admitted' : α → Prop} {utterance : Utterance (protocol κ α)}
    (explained : Explained said heard admitted utterance) (longer : said.Sublist said') (more : heard ⊆ heard')
    (kept : ∀ value, admitted value → admitted' value) : Explained said' heard' admitted' utterance := by
  cases utterance with
  | called request => trivial
  | replied request reply =>
      cases request with
      | put key value =>
          cases reply with
          | none => trivial
          | some previous =>
              obtain ⟨wasAdmitted, entry, same, entered, supersedes⟩ := explained
              exact ⟨kept value wasAdmitted, entry, same, entered.mono longer.subset, supersedes.mono longer⟩
      | remove key =>
          cases reply with
          | none => trivial
          | some value =>
              obtain ⟨entry, same, sameKey, entered⟩ := explained
              exact ⟨entry, same, sameKey, entered.mono longer.subset⟩
      | _ => trivial
  | asked query =>
      cases query with
      | price value => trivial
      | departed departure =>
          obtain ⟨told, cause⟩ := departure
          cases cause with
          | displaced =>
              obtain ⟨entry, key, value, same, entered, supersedes, unequal, replied⟩ := explained
              exact ⟨entry, key, value, same, entered.mono longer.subset, supersedes.mono longer, unequal, more replied⟩
          | refused => exact Entered.mono explained longer.subset
          | evicted => exact Entered.mono explained longer.subset
  | answered query answer => trivial

theorem explained_of_quiet [BEq κ] [BEq α] {request : Call κ α} (quiet : request.Quiet)
    (reply : (protocol κ α).Reply request) (said heard : List (Utterance (protocol κ α))) (admitted : α → Prop) :
    Explained said heard admitted (.replied request reply) := by
  cases request with
  | put key value => exact quiet.elim
  | remove key => exact quiet.elim
  | _ => trivial

theorem forall_told {holds : Utterance (protocol κ α) → Prop} {utterance : Utterance (protocol κ α)}
    {request : Call κ α} {reply : (protocol κ α).Reply request} {departures : List (Departure κ α)}
    (first : holds utterance) (told : ∀ departure ∈ departures, holds departure.notice)
    (replied : holds (.replied request reply)) :
    ∀ other ∈ [utterance] ++ departures.map Departure.notice ++ [.replied request reply], holds other := by
  intro other member
  rcases List.mem_append.mp member with before | last
  · rcases List.mem_append.mp before with isFirst | noticed
    · rw [List.mem_singleton.mp isFirst]
      exact first
    · obtain ⟨departure, isTold, rfl⟩ := List.mem_map.mp noticed
      exact told departure isTold
  · rw [List.mem_singleton.mp last]
    exact replied

variable [BEq κ] [Hashable κ] [BEq α]

theorem explained_removal {said heard : List (Utterance (protocol κ α))} {admitted : α → Prop} {store : Lru κ α}
    (entered : ∀ entry ∈ store.entries, Entered said entry) (key : κ) :
    Explained said heard admitted (.replied (.remove key) ((store.meaning.find? key).map (·.value))) := by
  cases found : store.meaning.find? key with
  | none => trivial
  | some entry =>
      have resident : store.entries.find? (·.key == key) = some entry := found
      have sameKey : (entry.key == key) = true := by simpa using List.find?_some resident
      exact ⟨entry, rfl, sameKey, entered entry (List.mem_of_find?_eq_some resident)⟩

/-- A value that is admitted supersedes the entry under its key, which is displaced unless it is refreshed. -/
theorem explained_succession {said heard : List (Utterance (protocol κ α))} {admitted : α → Prop} {store : Lru κ α}
    {key : κ} {value : α} (entered : ∀ entry ∈ store.entries, Entered said entry) (isAdmitted : admitted value)
    (supersedes : ∀ entry ∈ store.entries, (entry.key == key) = true → Supersedes said key value entry)
    (replied : .replied (.put key value) ((store.meaning.find? key).map (·.value)) ∈ heard) :
    Explained said heard admitted (.replied (.put key value) ((store.meaning.find? key).map (·.value))) ∧
      ∀ departure ∈ displacement (store.meaning.find? key) key value,
        Explained said heard admitted departure.notice := by
  cases found : store.meaning.find? key with
  | none => exact ⟨trivial, fun _ none => nomatch none⟩
  | some entry =>
      rw [found] at replied
      have resident : store.entries.find? (·.key == key) = some entry := found
      have member := List.mem_of_find?_eq_some resident
      have sameKey : (entry.key == key) = true := by simpa using List.find?_some resident
      refine ⟨⟨isAdmitted, entry, rfl, entered entry member, supersedes entry member sameKey⟩, ?_⟩
      intro departure isDisplaced
      obtain ⟨other, isPrevious, rfl⟩ := List.mem_map.mp isDisplaced
      obtain ⟨same, unequal⟩ := Option.filter_eq_some_iff.mp (Option.mem_toList.mp isPrevious)
      cases same
      exact ⟨entry, key, value, rfl, entered entry member, supersedes entry member sameKey, unequal, replied⟩

omit [Hashable κ] in
theorem explained_evictions {said heard : List (Utterance (protocol κ α))} {admitted : α → Prop}
    {evicted : List (Entry κ α)} (entered : ∀ entry ∈ evicted, Entered said entry) :
    ∀ departure ∈ evictions evicted, Explained said heard admitted departure.notice := by
  intro departure member
  obtain ⟨entry, left, rfl⟩ := List.mem_map.mp member
  exact entered entry left

theorem explained_admission {said heard : List (Utterance (protocol κ α))} {admitted : α → Prop} {store : Lru κ α}
    {evicted : List (Entry κ α)} {key : κ} {value : α} {query : Query κ α} {answer : (protocol κ α).Answer query}
    (entered : ∀ entry ∈ store.entries, Entered said entry) (left : ∀ entry ∈ evicted, entry ∈ store.entries)
    (isAdmitted : admitted value)
    (supersedes : ∀ entry ∈ store.entries, (entry.key == key) = true → Supersedes said key value entry)
    (replied : .replied (.put key value) ((store.meaning.find? key).map (·.value)) ∈ heard) :
    ∀ utterance ∈ [.answered query answer] ++
        (displacement (store.meaning.find? key) key value ++ evictions evicted).map Departure.notice ++
          [.replied (.put key value) ((store.meaning.find? key).map (·.value))],
      Explained said heard admitted utterance := by
  obtain ⟨handedOut, displaced⟩ := explained_succession entered isAdmitted supersedes replied
  refine forall_told trivial ?_ handedOut
  intro departure member
  rcases List.mem_append.mp member with isDisplaced | isEvicted
  · exact displaced departure isDisplaced
  · exact explained_evictions (fun entry member => entered entry (left entry member)) departure isEvicted

structure Chronicle (said : List (Utterance (protocol κ α))) (store : Lru κ α)
    (works : List (Service.Pending (service (κ := κ) (α := α)))) : Prop where
  intact : Intact store
  calls : ∀ pending ∈ works, .called pending.request ∈ said
  entered : ∀ entry ∈ store.entries, Entered said entry
  explained : ∀ utterance ∈ certain said works,
    Explained said (certain said works) (Admitted (accounts said store works)) utterance

/-- It is enough to explain what is new. -/
theorem Chronicle.extend {said more : List (Utterance (protocol κ α))} {store store' : Lru κ α}
    {works works' : List (Service.Pending (service (κ := κ) (α := α)))} {brought : Multiset α}
    (chronicle : Chronicle said store works) (intact : Intact store')
    (calls : ∀ pending ∈ works', .called pending.request ∈ said ++ more)
    (entered : ∀ entry ∈ store'.entries, Entered (said ++ more) entry)
    (moves : Moves (accounts said store works) (accounts (said ++ more) store' works') brought)
    (fresh : List (Utterance (protocol κ α)))
    (heard : (certain (said ++ more) works').Perm (certain said works ++ fresh))
    (explained : ∀ utterance ∈ fresh, Explained (said ++ more) (certain (said ++ more) works')
      (Admitted (accounts (said ++ more) store' works')) utterance) :
    Chronicle (said ++ more) store' works' where
  intact := intact
  calls := calls
  entered := entered
  explained utterance member := by
    rcases List.mem_append.mp (heard.subset member) with old | isFresh
    · refine (chronicle.explained utterance old).mono (List.sublist_append_left said more) ?_
        fun value admitted => moves.admitted admitted
      exact fun other member => heard.symm.subset (List.mem_append_left _ member)
    · exact explained utterance isFresh

theorem forall_pending_called {said : List (Utterance (protocol κ α))} {request : Call κ α}
    {progress : Progress (Work request) ((protocol κ α).Reply request)}
    {works : List (Service.Pending (service (κ := κ) (α := α)))} (called : .called request ∈ said)
    (calls : ∀ pending ∈ works, .called pending.request ∈ said) :
    ∀ pending ∈ service.outstanding progress ++ works, .called pending.request ∈ said := by
  intro pending member
  rcases List.mem_append.mp member with fresh | old
  · cases progress with
    | replied reply => nomatch fresh
    | waiting work =>
        rw [List.mem_singleton.mp fresh]
        exact called
  · exact calls pending old

theorem Chronicle.started [EquivBEq κ] {said : List (Utterance (protocol κ α))} {store : Lru κ α}
    {works : List (Service.Pending (service (κ := κ) (α := α)))} (chronicle : Chronicle said store works)
    {request : Call κ α} {progressed : Progress (Work request) ((protocol κ α).Reply request) × Lru κ α}
    (starts : Starts store request progressed) :
    Chronicle (said ++ [.called request, service.announce request progressed.1]) progressed.2
      (service.outstanding progressed.1 ++ works) := by
  have intact := starts.intact chronicle.intact
  have moves : Moves (accounts said store works) _ 0 := starts.moves chronicle.intact
  have calls : ∀ pending ∈ service.outstanding progressed.1 ++ works,
      .called pending.request ∈ said ++ [.called request, service.announce request progressed.1] := by
    apply forall_pending_called
    · exact List.mem_append_right _ List.mem_cons_self
    · exact fun pending old => List.mem_append_left _ (chronicle.calls pending old)
  have stays : ∀ entry ∈ store.entries,
      Entered (said ++ [.called request, service.announce request progressed.1]) entry :=
    fun entry member => (chronicle.entered entry member).mono (List.subset_append_left _ _)
  cases starts with
  | prices key value =>
      refine chronicle.extend intact calls stays moves [.called (.put key value), .asked (.price value)]
        (certain_pricing said works _ key value) ?_
      intro utterance member
      rcases List.mem_cons.mp member with rfl | asked
      · trivial
      · rw [List.mem_singleton.mp asked]
        trivial
  | @replies request store' quiet reply same _ =>
      exact chronicle.extend intact calls (fun entry member => stays entry (same.subset member)) moves _
        (certain_tell said works (.called request) request reply [])
        (forall_told trivial (fun _ none => nomatch none) (explained_of_quiet quiet reply _ _ _))
  | @removes store' key rest _ =>
      refine chronicle.extend intact calls ?_ moves _
        (certain_tell said works (.called (.remove key)) (.remove key) _ [])
        (forall_told trivial (fun _ none => nomatch none) (explained_removal stays key))
      intro entry member
      rw [show (_, store').2.entries = _ from rest] at member
      exact stays entry (List.mem_of_mem_filter member)
  | @evicts request store' evicted quiet reply parted _ =>
      refine chronicle.extend intact calls ?_ moves _ (certain_tell said works (.called request) request reply _)
        (forall_told trivial ?_ (explained_of_quiet quiet reply _ _ _))
      · intro entry member
        refine stays entry ?_
        rw [parted]
        exact List.mem_append_left _ member
      · refine explained_evictions fun entry left => stays entry ?_
        rw [parted]
        exact List.mem_append_right _ (List.mem_reverse.mpr left)

theorem Chronicle.resumed [EquivBEq κ] {said : List (Utterance (protocol κ α))} {store : Lru κ α}
    {works : List (Service.Pending (service (κ := κ) (α := α)))} {request : Call κ α} {work : Work request}
    {answer : (protocol κ α).Answer work.query} (chronicle : Chronicle said store (⟨request, work⟩ :: works))
    {progressed : Progress (Work request) ((protocol κ α).Reply request) × Lru κ α}
    (resumes : Resumes store work answer progressed) :
    Chronicle (said ++ [.answered (service.query work) answer, service.announce request progressed.1])
      progressed.2 (service.outstanding progressed.1 ++ works) := by
  have intact := resumes.intact chronicle.intact
  have moves : Moves (accounts said store (⟨request, work⟩ :: works)) _ _ := resumes.moves chronicle.intact
  have called : .called request ∈ said := chronicle.calls _ List.mem_cons_self
  have calls : ∀ pending ∈ service.outstanding progressed.1 ++ works, .called pending.request ∈
      said ++ [.answered (service.query work) answer, service.announce request progressed.1] := by
    apply forall_pending_called
    · exact List.mem_append_left _ called
    · exact fun pending old => List.mem_append_left _ (chronicle.calls pending (List.mem_cons_of_mem _ old))
  have stays : ∀ entry ∈ store.entries,
      Entered (said ++ [.answered (service.query work) answer, service.announce request progressed.1]) entry :=
    fun entry member => (chronicle.entered entry member).mono (List.subset_append_left _ _)
  cases resumes with
  | refuses key value cost tooCostly =>
      refine chronicle.extend intact calls stays moves _ (certain_tell said works (.answered (.price value) cost)
        (.put key value) none [⟨⟨key, value, cost⟩, .refused⟩]) (forall_told trivial ?_ trivial)
      intro departure member
      rw [List.mem_singleton.mp member]
      exact ⟨List.mem_append_left _ called, List.mem_append_right _ List.mem_cons_self⟩
  | @admits store' evicted kept key value cost fresh parted _ =>
      have heard := certain_tell said works (.answered (.price value) cost) (.put key value)
        ((store.meaning.find? key).map (·.value))
        (displacement (store.meaning.find? key) key value ++ evictions evicted)
      have others : ∀ entry ∈ kept ++ evicted.reverse, entry ∈ store.entries := by
        intro entry member
        rw [← parted] at member
        exact List.mem_of_mem_filter member
      refine chronicle.extend intact calls ?_ moves _ heard (explained_admission stays ?_ ?_ ?_ ?_)
      · intro entry member
        rw [show (_, store').2.entries = _ from fresh] at member
        rcases List.mem_cons.mp member with rfl | stayed
        · exact ⟨List.mem_append_left _ called, List.mem_append_right _ List.mem_cons_self⟩
        · exact stays entry (others entry (List.mem_append_left _ stayed))
      · exact fun entry left => others entry (List.mem_append_right _ (List.mem_reverse.mpr left))
      · refine ⟨.resident, (fun same => nomatch same), Multiset.mem_add.mpr (Or.inl ?_)⟩
        rw [residents_of_entries fresh]
        exact List.mem_cons_self
      · intro entry member sameKey
        refine ⟨sameKey, List.mem_append_left _ called, cost, ?_⟩
        exact (List.singleton_sublist.mpr (chronicle.entered entry member).priced).append
          (List.singleton_sublist.mpr List.mem_cons_self)
      · exact heard.symm.subset (List.mem_append_right _ (List.mem_append_right _ List.mem_cons_self))
  | tells departure rest reply heard =>
      refine chronicle.extend intact calls stays moves [.answered (.departed departure) ()] ?_ ?_
      · refine (certain_tell said works (.answered (.departed departure) ()) request reply rest).trans ?_
        rw [List.append_assoc [_]]
        refine (List.perm_append_comm.append_left _).trans ?_
        rw [← List.append_assoc]
        exact (certain_telling said works request departure rest reply).symm.append_right _
      · intro utterance member
        rw [List.mem_singleton.mp member]
        trivial

theorem chronicle_of_leads [EquivBEq κ] [LawfulHashable κ] {client : Client (protocol κ α) φ}
    {script : Script (protocol κ α) φ β} {memory : φ} {limit : UInt64} {said : List (Utterance (protocol κ α))}
    {moment : Moment service φ β}
    (leads : (Moment.opening script memory (Lru.ofLimit limit)).Leads client said moment) :
    Chronicle said moment.state moment.works := by
  refine leads.preserves Chronicle ⟨of_limit_intact limit, ?_, ?_, ?_⟩ ?_ ?_
  · exact fun _ none => nomatch none
  · exact fun _ none => nomatch none
  · exact fun _ none => nomatch none
  · intro said store works request chronicle
    exact chronicle.started (start_meets chronicle.intact request)
  · intro said store works request work answer chronicle
    exact chronicle.resumed (resume_meets chronicle.intact work answer)

end Cache

end MemoryBudget
