import MemoryBudget.Proofs.Pool.Conservation

/-!
# Where objects came from

Whatever a pool keeps was put. Whatever it tells the client to discard was put before, and whatever a lookup hands out
was put before that lookup or was just made by the client.
-/

set_option autoImplicit false

namespace MemoryBudget

namespace Pool

open Stock

variable {α σ φ β : Type} [Recyclable α σ]

def Recycled (said : List (Utterance (protocol α σ))) (care : Care) (requested : σ) (result : α) : Prop :=
  ∃ item, result = care.hand item ∧ List.Sublist [.called (.put item), .called (.lookup care requested),
    .replied (.lookup care requested) (result : α)] said

def Explained (said : List (Utterance (protocol α σ))) : Utterance (protocol α σ) → Prop
  | .asked (.discard item) => List.Sublist [.called (.put item), .asked (.discard item)] said
  | .replied (.lookup care requested) result =>
      Recycled said care requested result ∨ .answered (.make requested) result ∈ said
  | _ => True

theorem Explained.mono {said said' : List (Utterance (protocol α σ))} {utterance : Utterance (protocol α σ)}
    (explained : Explained said utterance) (longer : said.Sublist said') : Explained said' utterance := by
  cases utterance with
  | called request => trivial
  | answered query answer => trivial
  | asked query =>
      cases query with
      | discard item => exact List.Sublist.trans explained longer
      | _ => trivial
  | replied request reply =>
      cases request with
      | lookup care requested =>
          rcases explained with ⟨item, handed, before⟩ | made
          · exact Or.inl ⟨item, handed, before.trans longer⟩
          · exact Or.inr (longer.subset made)
      | _ => trivial

variable [DecidableEq σ] [Hashable σ] [Ord σ] {settings : Settings}

/-- What a pool keeps was put, and what it says is explained. -/
structure Chronicle (said : List (Utterance (protocol α σ))) (shelf : Shelf α)
    (works : List (service (α := α) (σ := σ) settings).Pending) : Prop where
  resident : ∀ item ∈ shelf.items, .called (.put item) ∈ said
  held : ∀ item ∈ waiting works, .called (.put item) ∈ said
  explained : ∀ utterance ∈ said, Explained said utterance

variable {said : List (Utterance (protocol α σ))} {shelf shelf' : Shelf α}
  {works works' : List (service (α := α) (σ := σ) settings).Pending}

/-- It is enough to explain what is new. -/
theorem Chronicle.extend (chronicle : Chronicle said shelf works) {utterance answer : Utterance (protocol α σ)}
    (resident : ∀ item ∈ shelf'.items, .called (.put item) ∈ said ++ [utterance, answer])
    (held : ∀ item ∈ waiting works', .called (.put item) ∈ said ++ [utterance, answer])
    (explains : Explained (said ++ [utterance, answer]) utterance)
    (explained : Explained (said ++ [utterance, answer]) answer) :
    Chronicle (said ++ [utterance, answer]) shelf' works' where
  resident := resident
  held := held
  explained other member := by
    simp only [List.mem_append, List.mem_cons, List.not_mem_nil, or_false] at member
    rcases member with old | rfl | rfl
    · exact (chronicle.explained other old).mono (List.sublist_append_left said _)
    · exact explains
    · exact explained

omit [Recyclable α σ] [DecidableEq σ] [Hashable σ] [Ord σ] in
/-- One utterance after another. -/
theorem put_before {said : List (Utterance (protocol α σ))} {item : α} (put : .called (.put item) ∈ said)
    (utterance : Utterance (protocol α σ)) :
    List.Sublist [.called (.put item), utterance] (said ++ [utterance]) :=
  (List.singleton_sublist.mpr put).append (List.Sublist.refl [utterance])

theorem explained_discard {request : Call α σ} (silent : request.Silent) (reply : (protocol α σ).Reply request)
    {items : List α} (put : ∀ item ∈ items, .called (.put item) ∈ said) :
    Explained (said ++ [(service settings).announce request (discard reply items)])
      ((service settings).announce request (discard reply items)) := by
  cases items with
  | nil =>
      cases request with
      | lookup care requested => exact silent.elim
      | _ => trivial
  | cons item rest => exact put_before (put item List.mem_cons_self) _

/-- The objects that a call discards were put before. -/
theorem Chronicle.discarding (chronicle : Chronicle said shelf works') {request : Call α σ}
    (silent : request.Silent) (reply : (protocol α σ).Reply request) (items : List α)
    {utterance : Utterance (protocol α σ)} (explains : ∀ said, Explained said utterance)
    (resident : ∀ item ∈ shelf'.items, .called (.put item) ∈ said ++ [utterance])
    (held : ∀ item ∈ waiting works, .called (.put item) ∈ said ++ [utterance])
    (put : ∀ item ∈ items, .called (.put item) ∈ said ++ [utterance]) :
    Chronicle (said ++ [utterance, (service settings).announce request (discard reply items)]) shelf'
      ((service settings).outstanding (discard reply items) ++ works) := by
  have longer : said ++ [utterance, (service settings).announce request (discard reply items)] =
      said ++ [utterance] ++ [(service settings).announce request (discard reply items)] := by
    simp
  apply chronicle.extend
  · intro item member
    rw [longer]
    exact List.mem_append_left _ (resident item member)
  · intro item member
    rw [longer]
    apply List.mem_append_left
    rw [waiting_append] at member
    rcases List.mem_append.mp member with left | other
    · apply put item
      rw [← (discard_discards settings silent reply items).all]
      exact List.mem_append_right _ left
    · exact held item other
  · exact explains _
  · rw [longer]
    exact explained_discard silent reply put

theorem Chronicle.started (chronicle : Chronicle said shelf works) {request : Call α σ}
    {progressed : Progress (Work request) ((protocol α σ).Reply request) × Shelf α}
    (starts : Shelf.Starts settings shelf request progressed) :
    Chronicle (said ++ [.called request, (service settings).announce request progressed.1]) progressed.2
      ((service settings).outstanding progressed.1 ++ works) := by
  have stays : ∀ more, ∀ item ∈ shelf.items, .called (.put item) ∈ said ++ more :=
    fun more item member => List.mem_append_left more (chronicle.resident item member)
  have waits : ∀ more, ∀ item ∈ waiting works, .called (.put item) ∈ said ++ more :=
    fun more item member => List.mem_append_left more (chronicle.held item member)
  cases starts with
  | @recycles shelf' fresher colder item care requested parted kept serving counted =>
      have put : .called (.put item) ∈ said := by
        apply chronicle.resident
        rw [parted]
        exact List.mem_append_right _ List.mem_cons_self
      apply chronicle.extend
      · intro other member
        rw [show (_, shelf').2.items = fresher ++ colder from kept] at member
        apply stays
        rw [parted]
        exact (List.Sublist.append_left (List.sublist_cons_self item colder) fresher).subset member
      · exact waits _
      · trivial
      · refine Or.inl ⟨item, rfl, ?_⟩
        exact (List.singleton_sublist.mpr put).append (List.Sublist.refl [_, _])
  | @misses shelf' care requested same counted =>
      apply chronicle.extend
      · intro item member
        rw [show (_, shelf').2.items = shelf.items from same] at member
        exact stays _ item member
      · exact waits _
      · trivial
      · trivial
  | vets item admits =>
      apply chronicle.extend
      · exact stays _
      · intro other member
        rcases List.mem_cons.mp member with rfl | old
        · exact List.mem_append_right _ List.mem_cons_self
        · exact waits _ other old
      · trivial
      · trivial
  | declines item =>
      apply chronicle.discarding (put_silent item) () [item]
      · exact fun _ => trivial
      · exact stays _
      · exact waits _
      · intro other member
        rw [List.mem_singleton.mp member]
        exact List.mem_append_right _ List.mem_cons_self
  | @sheds shelf' evicted request quiet reply sheds =>
      apply chronicle.discarding quiet.silent reply evicted
      · exact fun _ => trivial
      · intro item member
        apply stays
        rw [sheds.parted]
        exact List.mem_append_left _ member
      · exact waits _
      · intro item member
        apply stays
        rw [sheds.parted]
        exact List.mem_append_right _ (List.mem_reverse.mpr member)

theorem Chronicle.resumed {request : Call α σ} {work : Work request} {answer : (protocol α σ).Answer work.query}
    (chronicle : Chronicle said shelf (⟨request, work⟩ :: works : List (service settings).Pending))
    (proper : work.Proper)
    {progressed : Progress (Work request) ((protocol α σ).Reply request) × Shelf α}
    (resumes : Shelf.Resumes shelf work answer progressed) :
    Chronicle (said ++ [.answered work.query answer, (service settings).announce request progressed.1])
      progressed.2 ((service settings).outstanding progressed.1 ++ works) := by
  have stays : ∀ more, ∀ item ∈ shelf.items, .called (.put item) ∈ said ++ more :=
    fun more item member => List.mem_append_left more (chronicle.resident item member)
  have held : ∀ more, ∀ item ∈ work.holds, .called (.put item) ∈ said ++ more := by
    intro more item member
    apply List.mem_append_left
    apply chronicle.held
    rw [waiting_cons]
    exact List.mem_append_left _ member
  have waits : ∀ more, ∀ item ∈ waiting works, .called (.put item) ∈ said ++ more := by
    intro more item member
    apply List.mem_append_left
    apply chronicle.held
    rw [waiting_cons]
    exact List.mem_append_right _ member
  cases resumes with
  | supplies care requested item =>
      apply chronicle.extend
      · exact stays _
      · exact waits _
      · trivial
      · exact Or.inr (List.mem_append_right _ List.mem_cons_self)
  | refuses item approved =>
      apply chronicle.discarding (put_silent item) () [item]
      · exact fun _ => trivial
      · exact stays _
      · exact waits _
      · exact held _
  | @admits shelf' evicted kept item parted fresh counted =>
      apply chronicle.discarding (put_silent item) () evicted
      · exact fun _ => trivial
      · intro other member
        rw [show (_, shelf').2.items = item :: kept from fresh] at member
        rcases List.mem_cons.mp member with rfl | old
        · exact held _ _ List.mem_cons_self
        · apply stays
          rw [parted]
          exact List.mem_append_left _ old
      · exact waits _
      · intro other member
        apply stays
        rw [parted]
        exact List.mem_append_right _ (List.mem_reverse.mpr member)
  | discards item rest reply heard =>
      apply chronicle.discarding proper reply rest
      · exact fun _ => trivial
      · exact stays _
      · exact waits _
      · exact held _

theorem chronicle_of_leads [Std.TransOrd σ] [Std.LawfulEqOrd σ] {client : Client (protocol α σ) φ}
    {script : Script (protocol α σ) φ β} {memory : φ} {limit : UInt64} {moment : Moment (service settings) φ β}
    (leads : (Moment.opening script memory (Stock.ofLimit limit)).Leads client said moment) :
    Chronicle said moment.state.shelf moment.works := by
  apply (holds_of_leads Chronicle _ _ _ leads).2
  · exact ⟨(fun _ none => nomatch none), (fun _ none => nomatch none), (fun _ none => nomatch none)⟩
  · intro said shelf works request progressed chronicle starts
    exact chronicle.started starts
  · intro said shelf works request work answer progressed proper chronicle resumes
    exact chronicle.resumed proper resumes

end Pool

end MemoryBudget
