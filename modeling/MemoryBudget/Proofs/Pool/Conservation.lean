import MemoryBudget.Proofs.Pool.Refinement
import MemoryBudget.Proofs.Pool.Steps

/-!
# Conservation of objects

An object that is brought to a pool is waiting, resident, handed out or discarded. A call that waits while evicted
objects are discarded still has the other ones, and a put that waits for approval has the object that is put. A step
moves objects from one of these places to another, and the counts of the pool move with them.
-/

set_option autoImplicit false

namespace MemoryBudget

namespace Pool

open Stock

variable {α σ φ β : Type}

/-! ## What an utterance is about -/

def offers : Utterance (protocol α σ) → List α
  | .called (.put item) => [item]
  | _ => []

def supplies : Utterance (protocol α σ) → List α
  | .answered (.make _) item => [item]
  | _ => []

def serves : Utterance (protocol α σ) → List α
  | .replied (.lookup _ _) item => [item]
  | _ => []

def discards : Utterance (protocol α σ) → List α
  | .asked (.discard item) => [item]
  | _ => []

def requests : Utterance (protocol α σ) → List σ
  | .called (.lookup _ requested) => [requested]
  | _ => []

def orders : Utterance (protocol α σ) → List σ
  | .asked (.make requested) => [requested]
  | _ => []

def Work.holds {request : Call α σ} : Work request → List α
  | .making _ _ => []
  | .vetting item => [item]
  | .discarding _ rest _ => rest

def Work.undecided {request : Call α σ} : Work request → Nat
  | .vetting _ => 1
  | _ => 0

def Call.Silent : Call α σ → Prop
  | .lookup _ _ => False
  | _ => True

/-- Only a call that hands out no object has objects to discard. -/
def Work.Proper {request : Call α σ} : Work request → Prop
  | .making _ _ | .vetting _ => True
  | .discarding _ _ _ => request.Silent

theorem put_silent (item : α) : (Call.put item : Call α σ).Silent := trivial

theorem Call.Quiet.silent {request : Call α σ} (quiet : request.Quiet) : request.Silent := by
  cases request with
  | lookup care requested => exact quiet.elim
  | _ => trivial

variable [DecidableEq σ] [Hashable σ] [Ord σ] [Recyclable α σ] {settings : Settings}

def waiting (works : List (service (α := α) (σ := σ) settings).Pending) : List α :=
  works.flatMap fun pending => Work.holds pending.work

def undecided (works : List (service (α := α) (σ := σ) settings).Pending) : Nat :=
  (works.map fun pending => Work.undecided pending.work).sum

/-! ## Objects that leave -/

/-- What is heard of a call that discards objects and replies, and what is left of it. -/
structure Discards (items : List α) (heard : Utterance (protocol α σ))
    (works : List (service (α := α) (σ := σ) settings).Pending) : Prop where
  all : discards heard ++ waiting works = items
  offers : offers heard = []
  supplies : supplies heard = []
  serves : serves heard = []
  requests : requests heard = []
  orders : orders heard = []
  undecided : undecided works = 0

theorem discard_discards (settings : Settings) {request : Call α σ} (silent : request.Silent) (reply : (protocol α σ).Reply request)
    (items : List α) :
    Discards items ((service settings).announce request (discard reply items))
      ((service settings).outstanding (discard reply items)) := by
  cases items with
  | nil =>
      cases request with
      | lookup care requested => exact silent.elim
      | _ => exact ⟨rfl, rfl, rfl, rfl, rfl, rfl, rfl⟩
  | cons item rest =>
      constructor
      case all => exact congrArg (item :: ·) (List.append_nil rest)
      all_goals rfl

/-! ## The places of objects -/

/-- Each object of this kind that was brought is in one place. -/
def Balanced (kind : α → Bool) (said : List (Utterance (protocol α σ))) (shelf : Shelf α)
    (works : List (service (α := α) (σ := σ) settings).Pending) : Prop :=
  (said.flatMap offers).countP kind + (said.flatMap supplies).countP kind =
    (waiting works).countP kind + shelf.items.countP kind + (said.flatMap serves).countP kind +
      (said.flatMap discards).countP kind

variable {kind : α → Bool} {said : List (Utterance (protocol α σ))} {shelf : Shelf α}
  {works : List (service (α := α) (σ := σ) settings).Pending}

theorem waiting_append (works more : List (service (α := α) (σ := σ) settings).Pending) :
    waiting (works ++ more) = waiting works ++ waiting more :=
  List.flatMap_append

theorem waiting_cons {request : Call α σ} (work : Work request)
    (works : List (service (α := α) (σ := σ) settings).Pending) :
    waiting (⟨request, work⟩ :: works) = work.holds ++ waiting works :=
  List.flatMap_cons

omit [DecidableEq σ] [Hashable σ] [Ord σ] in
theorem Care.kind_hand (wiped : ∀ item : α, kind (Recyclable.wipe item) = kind item) (care : Care) (item : α) :
    kind (care.hand item) = kind item := by
  unfold hand
  split
  · rfl
  · exact wiped item

omit [DecidableEq σ] [Hashable σ] [Ord σ] [Recyclable α σ] in
theorem offers_of_quiet {request : Call α σ} (quiet : request.Quiet) : offers (.called request) = [] := by
  cases request with
  | lookup care requested => exact quiet.elim
  | put item => exact quiet.elim
  | _ => rfl

/-- Nothing is lost or doubled as long as what is brought and what was there is there or leaves. -/
theorem Balanced.extend {shelf' : Shelf α} {works' : List (service (α := α) (σ := σ) settings).Pending}
    {more : List (Utterance (protocol α σ))} (balanced : Balanced kind said shelf works)
    (moves : (more.flatMap offers).countP kind + (more.flatMap supplies).countP kind + (waiting works).countP kind +
        shelf.items.countP kind =
      (waiting works').countP kind + shelf'.items.countP kind + (more.flatMap serves).countP kind +
        (more.flatMap discards).countP kind) :
    Balanced kind (said ++ more) shelf' works' := by
  unfold Balanced at balanced ⊢
  simp only [List.flatMap_append, List.countP_append]
  omega

/-- What a call that discards objects brought, or what was there before, is there afterwards or discarded. -/
theorem Balanced.discarding {shelf' : Shelf α} {works' : List (service (α := α) (σ := σ) settings).Pending}
    (balanced : Balanced kind said shelf works') {request : Call α σ} (silent : request.Silent)
    (reply : (protocol α σ).Reply request) (items : List α) (utterance : Utterance (protocol α σ))
    (supplied : supplies utterance = []) (served : serves utterance = []) (discarded : discards utterance = [])
    (moves : (offers utterance).countP kind + (waiting works').countP kind + shelf.items.countP kind =
      (waiting works).countP kind + shelf'.items.countP kind + items.countP kind) :
    Balanced kind (said ++ [utterance, (service settings).announce request (discard reply items)]) shelf'
      ((service settings).outstanding (discard reply items) ++ works) := by
  have left := discard_discards settings silent reply items
  have leaving := congrArg (List.countP kind) left.all
  rw [List.countP_append] at leaving
  apply balanced.extend
  simp only [List.flatMap_cons, List.flatMap_nil, List.append_nil, List.countP_append, List.countP_nil,
    waiting_append, supplied, served, discarded, left.offers, left.supplies, left.serves]
  omega

theorem Balanced.started (balanced : Balanced kind said shelf works)
    (wiped : ∀ item, kind (Recyclable.wipe item) = kind item) {request : Call α σ}
    {progressed : Progress (Work request) ((protocol α σ).Reply request) × Shelf α}
    (starts : Shelf.Starts settings shelf request progressed) :
    Balanced kind (said ++ [.called request, (service settings).announce request progressed.1]) progressed.2
      ((service settings).outstanding progressed.1 ++ works) := by
  cases starts with
  | @recycles shelf' fresher colder item care requested parted kept serving counted =>
      apply balanced.extend
      simp [Service.announce, Service.outstanding, offers, supplies, serves, discards, parted, kept,
        List.countP_cons, care.kind_hand wiped]
      omega
  | @misses shelf' care requested same counted =>
      apply balanced.extend
      rw [show (_, shelf').2.items = shelf.items from same]
      show 0 + 0 + (waiting works).countP kind + shelf.items.countP kind =
        (waiting works).countP kind + shelf.items.countP kind + 0 + 0
      omega
  | vets item admits =>
      apply balanced.extend
      show [item].countP kind + 0 + (waiting works).countP kind + shelf.items.countP kind =
        ([item] ++ waiting works).countP kind + shelf.items.countP kind + 0 + 0
      rw [List.countP_append]
      omega
  | declines item =>
      apply balanced.discarding (put_silent item) () [item] _ rfl rfl rfl
      simp only [offers]
      omega
  | @sheds shelf' evicted request quiet reply sheds =>
      have parted := congrArg (List.countP kind) sheds.parted
      rw [List.countP_append, List.countP_reverse] at parted
      apply balanced.discarding quiet.silent reply evicted _ rfl rfl rfl
      rw [offers_of_quiet quiet, List.countP_nil]
      dsimp only at parted ⊢
      omega

/-- Nothing is lost or doubled when a query is answered. -/
theorem Balanced.resumed {request : Call α σ} {work : Work request} {answer : (protocol α σ).Answer work.query}
    (balanced : Balanced kind said shelf (⟨request, work⟩ :: works : List (service settings).Pending))
    (proper : work.Proper)
    {progressed : Progress (Work request) ((protocol α σ).Reply request) × Shelf α}
    (resumes : Shelf.Resumes shelf work answer progressed) :
    Balanced kind (said ++ [.answered work.query answer, (service settings).announce request progressed.1])
      progressed.2 ((service settings).outstanding progressed.1 ++ works) := by
  cases resumes with
  | supplies care requested item =>
      apply balanced.extend
      simp [Service.announce, Service.outstanding, offers, Pool.supplies, serves, discards, waiting_cons, Work.holds,
        Work.query]
      omega
  | refuses item approved =>
      apply balanced.discarding (put_silent item) () [item] _ rfl rfl rfl
      rw [waiting_cons, List.countP_append]
      simp only [offers, Work.holds, List.countP_nil]
      omega
  | @admits shelf' evicted kept item parted fresh counted =>
      apply balanced.discarding (put_silent item) () evicted _ rfl rfl rfl
      rw [waiting_cons, List.countP_append, parted, fresh, ← List.singleton_append, List.countP_append,
        List.countP_append, List.countP_reverse]
      simp only [offers, Work.holds, List.countP_nil]
      omega
  | discards item rest reply heard =>
      apply balanced.discarding proper reply rest _ rfl rfl rfl
      rw [waiting_cons, List.countP_append]
      simp only [offers, Work.holds, List.countP_nil]
      omega

/-! ## The counts -/

/-- The counts of a pool tell what it was asked for and what it has. -/
structure Counted (said : List (Utterance (protocol α σ))) (shelf : Shelf α)
    (works : List (service (α := α) (σ := σ) settings).Pending) : Prop where
  puts : shelf.tally.puts = shelf.items.length + shelf.tally.hits + shelf.tally.evictions
  requests : shelf.tally.hits + shelf.tally.misses = (said.flatMap requests).length
  orders : (said.flatMap orders).length = shelf.tally.misses
  serves : (said.flatMap serves).length = shelf.tally.hits + (said.flatMap supplies).length
  /-- An object that is admitted was put. -/
  offers : undecided works + shelf.tally.puts ≤ (said.flatMap offers).length

omit [DecidableEq σ] [Hashable σ] [Ord σ] [Recyclable α σ] in
theorem requests_of_silent {request : Call α σ} (silent : request.Silent) : requests (.called request) = [] := by
  cases request with
  | lookup care requested => exact silent.elim
  | _ => rfl

theorem undecided_append (works more : List (service (α := α) (σ := σ) settings).Pending) :
    undecided (works ++ more) = undecided works + undecided more := by
  unfold undecided
  rw [List.map_append, List.sum_append]

theorem undecided_cons {request : Call α σ} (work : Work request)
    (works : List (service (α := α) (σ := σ) settings).Pending) :
    undecided (⟨request, work⟩ :: works) = work.undecided + undecided works :=
  List.sum_cons

/-- Objects that leave count as evicted if they were resident, and one that is admitted was put. -/
theorem Counted.discarding {shelf' : Shelf α} {works' : List (service (α := α) (σ := σ) settings).Pending}
    (counted : Counted said shelf works') {request : Call α σ} (silent : request.Silent)
    (reply : (protocol α σ).Reply request) (items : List α) {utterance : Utterance (protocol α σ)}
    (supplied : supplies utterance = []) (served : Pool.serves utterance = [])
    (requested : Pool.requests utterance = []) (ordered : Pool.orders utterance = [])
    (admitted : Nat) (evicted : Nat)
    (tally : shelf'.tally = { shelf.tally with
      puts := shelf.tally.puts + admitted
      evictions := shelf.tally.evictions + evicted })
    (left : shelf'.items.length + evicted = shelf.items.length + admitted)
    (offered : undecided works + admitted ≤ undecided works' + (Pool.offers utterance).length) :
    Counted (said ++ [utterance, (service settings).announce request (discard reply items)]) shelf'
      ((service settings).outstanding (discard reply items) ++ works) := by
  have leaving := discard_discards settings silent reply items
  obtain ⟨puts, requests, orders, serves, offers⟩ := counted
  constructor
  · rw [tally]
    dsimp only
    omega
  · rw [tally]
    simpa [requested, leaving.requests] using requests
  · rw [tally]
    simpa [ordered, leaving.orders] using orders
  · rw [tally]
    simpa [served, supplied, leaving.serves, leaving.supplies] using serves
  · rw [tally, undecided_append, leaving.undecided]
    simp only [List.flatMap_append, List.flatMap_cons, List.flatMap_nil, List.append_nil, List.length_append,
      leaving.offers]
    omega

/-- A lookup counts a hit or a miss, and only a miss asks for a new object. -/
theorem Counted.started (counted : Counted said shelf works) {request : Call α σ}
    {progressed : Progress (Work request) ((protocol α σ).Reply request) × Shelf α}
    (starts : Shelf.Starts settings shelf request progressed) :
    Counted (said ++ [.called request, (service settings).announce request progressed.1]) progressed.2
      ((service settings).outstanding progressed.1 ++ works) := by
  cases starts with
  | @recycles shelf' fresher colder item care requested parted kept serving hit =>
      obtain ⟨puts, requests, orders, serves, offers⟩ := counted
      have shorter : shelf.items.length = shelf'.items.length + 1 := by
        rw [parted, kept, List.length_append, List.length_append, List.length_cons]
        omega
      constructor <;> simp only [hit, List.flatMap_append, List.length_append]
      · omega
      · show _ = _ + 1
        omega
      · exact orders
      · show _ + 1 = _ + (_ + 0)
        omega
      · exact offers
  | @misses shelf' care requested same missed =>
      obtain ⟨puts, requests, orders, serves, offers⟩ := counted
      constructor <;> simp only [same, missed, List.flatMap_append, List.length_append]
      · exact puts
      · show _ = _ + 1
        omega
      · show _ + 1 = _
        omega
      · exact serves
      · show 0 + undecided works + _ ≤ _ + 0
        omega
  | vets item admits =>
      obtain ⟨puts, requests, orders, serves, offers⟩ := counted
      constructor <;> simp only [List.flatMap_append, List.length_append]
      · exact puts
      · exact requests
      · exact orders
      · exact serves
      · show undecided (⟨.put item, .vetting item⟩ :: works) + _ ≤ _ + 1
        rw [undecided_cons]
        simp only [Work.undecided]
        omega
  | declines item =>
      have offered : undecided works + 0 ≤ undecided works + [item].length := by omega
      exact counted.discarding (put_silent item) () [item] rfl rfl rfl rfl 0 0 rfl rfl offered
  | @sheds shelf' evicted request quiet reply sheds =>
      have left : shelf'.items.length + evicted.length = shelf.items.length + 0 := by
        have parted := congrArg List.length sheds.parted
        rw [List.length_append, List.length_reverse] at parted
        exact parted.symm
      have offered : undecided works + 0 ≤ undecided works + (Pool.offers (.called request)).length := by omega
      exact counted.discarding quiet.silent reply evicted rfl rfl (requests_of_silent quiet.silent) rfl 0
        evicted.length sheds.counted left offered

/-- A new object that the client made is handed out. An object that is admitted counts as put. -/
theorem Counted.resumed {request : Call α σ} {work : Work request} {answer : (protocol α σ).Answer work.query}
    (counted : Counted said shelf (⟨request, work⟩ :: works : List (service settings).Pending))
    (proper : work.Proper)
    {progressed : Progress (Work request) ((protocol α σ).Reply request) × Shelf α}
    (resumes : Shelf.Resumes shelf work answer progressed) :
    Counted (said ++ [.answered work.query answer, (service settings).announce request progressed.1])
      progressed.2 ((service settings).outstanding progressed.1 ++ works) := by
  cases resumes with
  | supplies care requested item =>
      obtain ⟨puts, requests, orders, serves, offers⟩ := counted
      constructor <;> simp only [List.flatMap_append, List.length_append]
      · exact puts
      · exact requests
      · exact orders
      · show _ + 1 = _ + (_ + 1)
        omega
      · show undecided works + _ ≤ _
        rw [undecided_cons] at offers
        omega
  | refuses item approved =>
      have offered : undecided works + 0 ≤ undecided (⟨.put item, .vetting item⟩ :: works) + 0 := by
        rw [undecided_cons]
        omega
      exact counted.discarding (put_silent item) () [item] rfl rfl rfl rfl 0 0 rfl rfl offered
  | @admits shelf' evicted kept item parted fresh tally =>
      have left : shelf'.items.length + evicted.length = shelf.items.length + 1 := by
        rw [parted, fresh, List.length_append, List.length_reverse, List.length_cons]
        omega
      have offered : undecided works + 1 ≤ undecided (⟨.put item, .vetting item⟩ :: works) + 0 := by
        rw [undecided_cons]
        simp only [Work.undecided]
        omega
      exact counted.discarding (put_silent item) () evicted rfl rfl rfl rfl 1 evicted.length tally
        left offered
  | discards item rest reply heard =>
      have offered : undecided works + 0 ≤ undecided (⟨request, .discarding item rest reply⟩ :: works) + 0 := by
        rw [undecided_cons]
        omega
      exact counted.discarding proper reply rest rfl rfl rfl rfl 0 0 rfl rfl offered

/-! ## Whole dialogues -/

theorem forall_outstanding {request : Call α σ} {progress : Progress (Work request) ((protocol α σ).Reply request)}
    (proper : ∀ work, progress = .waiting work → work.Proper) (others : ∀ pending ∈ works, Work.Proper pending.work) :
    ∀ pending ∈ (service settings).outstanding progress ++ works, Work.Proper pending.work := by
  intro pending member
  rcases List.mem_append.mp member with fresh | old
  · cases progress with
    | replied reply => nomatch fresh
    | waiting work =>
        rw [List.mem_singleton.mp fresh]
        exact proper work rfl
  · exact others pending old

omit [DecidableEq σ] [Hashable σ] [Ord σ] [Recyclable α σ] in
theorem proper_of_discard {request : Call α σ} (silent : request.Silent) {reply : (protocol α σ).Reply request}
    {items : List α} {work : Work request} (waits : discard reply items = .waiting work) : work.Proper := by
  cases items with
  | nil => cases waits
  | cons item rest =>
      cases waits
      exact silent

omit [Hashable σ] in
theorem Shelf.Starts.proper {request : Call α σ} {work : Work request} {shelf' : Shelf α}
    (starts : Shelf.Starts settings shelf request (.waiting work, shelf')) : work.Proper := by
  generalize outcome : (Progress.waiting work, shelf') = progressed at starts
  cases starts with
  | recycles care requested parted kept serving counted => cases outcome
  | misses care requested same counted =>
      cases outcome
      trivial
  | vets item admits =>
      cases outcome
      trivial
  | declines item => exact proper_of_discard (put_silent item) (Prod.mk.inj outcome).1.symm
  | sheds request quiet reply sheds => exact proper_of_discard quiet.silent (Prod.mk.inj outcome).1.symm

omit [DecidableEq σ] [Hashable σ] [Ord σ] [Recyclable α σ] in
theorem Shelf.Resumes.proper {request : Call α σ} {work later : Work request}
    {answer : (protocol α σ).Answer work.query} {shelf' : Shelf α} (was : work.Proper)
    (resumes : Shelf.Resumes shelf work answer (.waiting later, shelf')) : later.Proper := by
  generalize outcome : (Progress.waiting later, shelf') = progressed at resumes
  cases resumes with
  | supplies care requested item => cases outcome
  | refuses item approved => exact proper_of_discard (put_silent item) (Prod.mk.inj outcome).1.symm
  | admits item parted fresh counted => exact proper_of_discard (put_silent item) (Prod.mk.inj outcome).1.symm
  | discards item rest reply heard => exact proper_of_discard was (Prod.mk.inj outcome).1.symm

variable [Std.TransOrd σ] [Std.LawfulEqOrd σ]

/-- What holds of the shelf, of what was said and of the calls in progress, if each step of a shelf preserves it. -/
theorem holds_of_leads
    (holds : List (Utterance (protocol α σ)) → Shelf α → List (service (α := α) (σ := σ) settings).Pending → Prop)
    {limit : UInt64} (initially : holds [] (Shelf.ofLimit limit) [])
    (started : ∀ said shelf works request progressed, holds said shelf works →
      Shelf.Starts settings shelf request progressed →
        holds (said ++ [.called request, (service settings).announce request progressed.1]) progressed.2
          ((service settings).outstanding progressed.1 ++ works))
    (resumed : ∀ said shelf works request (work : Work request) answer progressed, work.Proper →
      holds said shelf (⟨request, work⟩ :: works) → Shelf.Resumes shelf work answer progressed →
        holds (said ++ [.answered work.query answer, (service settings).announce request progressed.1]) progressed.2
          ((service settings).outstanding progressed.1 ++ works))
    {client : Client (protocol α σ) φ} {script : Script (protocol α σ) φ β} {memory : φ}
    {moment : Moment (service settings) φ β}
    (leads : (Moment.opening script memory (Stock.ofLimit limit)).Leads client said moment) :
    Coherent moment.state ∧ holds said moment.state.shelf moment.works := by
  have general := leads.preserves (fun said stock works =>
    Coherent stock ∧ (∀ pending ∈ works, Work.Proper pending.work) ∧ holds said stock.shelf works)
    ⟨of_limit_coherent limit, (fun _ none => nomatch none), initially⟩ ?_ ?_
  · exact ⟨general.1, general.2.2⟩
  · rintro said stock works request ⟨coherent, proper, held⟩
    obtain ⟨outcome, state, coherent'⟩ := coherent.start_follows settings request
    have starts : Shelf.Starts settings stock.shelf request
        ((start settings request stock).1, (start settings request stock).2.shelf) := by
      rw [outcome, state]
      exact stock.shelf.start_meets settings request
    refine ⟨coherent', forall_outstanding ?_ proper, started said stock.shelf works request _ held starts⟩
    intro work waits
    have waiting : (start settings request stock).1 = .waiting work := waits
    rw [waiting] at starts
    exact starts.proper
  · rintro said stock works request work answer ⟨coherent, proper, held⟩
    rw [List.forall_mem_cons] at proper
    obtain ⟨outcome, state, coherent'⟩ := coherent.resume_follows work answer
    have resumes : Shelf.Resumes stock.shelf work answer
        ((resume work answer stock).1, (resume work answer stock).2.shelf) := by
      rw [outcome, state]
      exact stock.shelf.resume_meets work answer
    refine ⟨coherent', forall_outstanding ?_ proper.2,
      resumed said stock.shelf works request work answer _ proper.1 held resumes⟩
    intro later waits
    have waiting : (resume work answer stock).1 = .waiting later := waits
    rw [waiting] at resumes
    exact resumes.proper proper.1

theorem counted_of_leads {client : Client (protocol α σ) φ} {script : Script (protocol α σ) φ β} {memory : φ}
    {limit : UInt64} {moment : Moment (service settings) φ β}
    (leads : (Moment.opening script memory (Stock.ofLimit limit)).Leads client said moment) :
    Counted said moment.state.shelf moment.works := by
  apply (holds_of_leads Counted _ _ _ leads).2
  · exact ⟨rfl, rfl, rfl, rfl, Nat.le_refl 0⟩
  · intro said shelf works request progressed counted starts
    exact counted.started starts
  · intro said shelf works request work answer progressed proper counted resumes
    exact counted.resumed proper resumes

/-- Objects of a kind are neither lost nor doubled in a dialogue, as long as wiping does not change the kind. -/
theorem balanced_of_leads {client : Client (protocol α σ) φ} {script : Script (protocol α σ) φ β} {memory : φ}
    {limit : UInt64} {moment : Moment (service settings) φ β}
    (leads : (Moment.opening script memory (Stock.ofLimit limit)).Leads client said moment)
    (wiped : ∀ item, kind (Recyclable.wipe item) = kind item) :
    Balanced kind said moment.state.shelf moment.works := by
  apply (holds_of_leads (Balanced kind) _ _ _ leads).2
  · rfl
  · intro said shelf works request progressed balanced starts
    exact balanced.started wiped starts
  · intro said shelf works request work answer progressed proper balanced resumes
    exact balanced.resumed proper resumes

end Pool

end MemoryBudget
