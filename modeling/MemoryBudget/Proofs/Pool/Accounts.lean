import MemoryBudget.Proofs.Dialogue.Memory
import MemoryBudget.Proofs.Pool.Conservation

/-!
# Pools keep account

Whoever attends a pool may have objects of its own, which it makes and takes back. As long as it keeps account of them,
so does the pool: what is put, handed out, made and discarded comes out even in each call, whatever objects are weighed
by, and so do the counts. A pool is then fit to attend another one.
-/

set_option autoImplicit false

namespace MemoryBudget

namespace Pool

open Stock

variable {α σ φ : Type}

def total (weigh : α → Int) (items : List α) : Int :=
  (items.map weigh).sum

section Total

variable (weigh : α → Int)

@[simp] theorem total_nil : total weigh [] = 0 := rfl

@[simp] theorem total_cons (item : α) (rest : List α) : total weigh (item :: rest) = weigh item + total weigh rest :=
  List.sum_cons

@[simp] theorem total_append (items more : List α) :
    total weigh (items ++ more) = total weigh items + total weigh more := by
  rw [total, List.map_append, List.sum_append]
  rfl

theorem total_perm {items items' : List α} (same : items.Perm items') : total weigh items = total weigh items' :=
  (same.map weigh).sum_eq

theorem total_reverse (items : List α) : total weigh items.reverse = total weigh items :=
  total_perm weigh (List.reverse_perm items)

theorem total_eraseIdx {items : List α} {place : Nat} {item : α} (found : items[place]? = some item) :
    total weigh items = weigh item + total weigh (items.eraseIdx place) := by
  obtain ⟨bound, rfl⟩ := List.getElem?_eq_some_iff.mp found
  rw [← total_cons]
  exact (total_perm weigh (List.getElem_cons_eraseIdx_perm bound)).symm

theorem total_modify {change : α → α} (faithful : ∀ item, weigh (change item) = weigh item) (items : List α)
    (place : Nat) : total weigh (items.modify place change) = total weigh items := by
  induction items generalizing place with
  | nil => rw [List.modify_nil]
  | cons item rest ih =>
      cases place with
      | zero => rw [List.modify_zero_cons, total_cons, total_cons, faithful]
      | succ place => rw [List.modify_succ_cons, total_cons, total_cons, ih]

end Total

/-- What is known of an attendant from what it remembers. -/
structure Account (φ : Type) where
  valid : φ → Prop
  /-- The weight of what it has, less what it has made. -/
  worth : φ → Int
  /-- How many objects it was asked to make. -/
  makes : φ → Nat
  /-- How many objects it was told to discard. -/
  discards : φ → Nat

/-- What has come into the account, and how often the attendant was asked to make and to discard something. -/
structure Account.Moves (account : Account φ) (before after : φ) (gained : Int) (made discarded : Nat) : Prop where
  valid : account.valid after
  worth : account.worth after = account.worth before + gained
  makes : account.makes after = account.makes before + made
  discards : account.discards after = account.discards before + discarded

/-- The attendant hands out what it makes, and keeps what it is told to discard. -/
structure Account.Kept (account : Account φ) (weigh : α → Int)
    (answer : (query : (protocol α σ).Query) → φ → (protocol α σ).Answer query × φ) : Prop where
  made : ∀ requested memory, account.valid memory →
    account.Moves memory (answer (.make requested) memory).2 (-weigh (answer (.make requested) memory).1) 1 0
  approved : ∀ item memory, account.valid memory → account.Moves memory (answer (.approve item) memory).2 0 0 0
  discarded : ∀ item memory, account.valid memory →
    account.Moves memory (answer (.discard item) memory).2 (weigh item) 0 1

/-! ## Calls in progress -/

structure Remains (α : Type) where
  /-- The objects that it has, with one that it asks about or hands out. -/
  objects : List α
  /-- How many objects it waits for. -/
  awaited : Nat
  /-- How many objects it has and does not hand out. -/
  leaving : Nat
  /-- How many objects may still be admitted. -/
  undecided : Nat

def Work.remains {request : Call α σ} : Work request → Remains α
  | .making _ _ => ⟨[], 1, 0, 0⟩
  | .vetting item => ⟨[item], 0, 1, 1⟩
  | .discarding item rest _ => ⟨item :: rest, 0, rest.length + 1, 0⟩

def remains {request : Call α σ} : Progress (Work request) ((protocol α σ).Reply request) → Remains α
  | .replied reply => ⟨serves (.replied request reply), 0, 0, 0⟩
  | .waiting work => work.remains

def Remains.discarding (items : List α) : Remains α :=
  ⟨items, 0, items.length, 0⟩

theorem remains_discard {request : Call α σ} (silent : request.Silent) (reply : (protocol α σ).Reply request)
    (items : List α) : remains (discard reply items) = .discarding items := by
  cases items with
  | nil =>
      cases request with
      | lookup care requested => exact silent.elim
      | _ => rfl
  | cons item rest => rfl

def Account.Answers (account : Account φ) (weigh : α → Int) (before after : φ) {request : Call α σ} :
    (work : Work request) → (protocol α σ).Answer work.query → Prop
  | .making _ _, item => account.Moves before after (-weigh item) 1 0
  | .vetting _, _ => account.Moves before after 0 0 0
  | .discarding item _ _, _ => account.Moves before after (weigh item) 0 1

theorem Account.Kept.answers {account : Account φ} {weigh : α → Int}
    {answer : (query : (protocol α σ).Query) → φ → (protocol α σ).Answer query × φ}
    (kept : account.Kept weigh answer) {request : Call α σ} (work : Work request) {memory : φ}
    (valid : account.valid memory) :
    account.Answers weigh memory (answer work.query memory).2 work (answer work.query memory).1 := by
  cases work with
  | making care requested => exact kept.made requested memory valid
  | vetting item => exact kept.approved item memory valid
  | discarding item rest reply => exact kept.discarded item memory valid

theorem serves_of_quiet {request : Call α σ} (quiet : request.Quiet) (reply : (protocol α σ).Reply request) :
    serves (.replied request reply) = [] := by
  cases request with
  | lookup care requested => exact quiet.elim
  | _ => rfl

structure Underway (account : Account φ) (weigh : α → Int) (request : Call α σ) (shelf : Shelf α) (memory : φ)
    (remains : Remains α) (shelf' : Shelf α) (memory' : φ) : Prop where
  valid : account.valid memory'
  conserved : total weigh shelf'.items + account.worth memory' + total weigh remains.objects =
    total weigh shelf.items + account.worth memory + total weigh (offers (.called request))
  makes : account.makes memory' + remains.awaited + shelf.tally.misses = account.makes memory + shelf'.tally.misses
  lookups : shelf'.tally.hits + shelf'.tally.misses =
    shelf.tally.hits + shelf.tally.misses + (requests (.called request)).length
  discards : account.discards memory' + remains.leaving + shelf'.tally.puts + shelf.tally.evictions =
    account.discards memory + shelf.tally.puts + shelf'.tally.evictions + (offers (.called request)).length
  puts : shelf'.tally.puts + remains.undecided ≤ shelf.tally.puts + (offers (.called request)).length

section Steps

variable {account : Account φ} {weigh : α → Int} {request : Call α σ} {shelf shelf' shelf'' : Shelf α}
  {memory memory' memory'' : φ} {item : α}

/-! ### How a call begins -/

theorem underway_serving {care : Care} {requested : σ} {fresher colder : List α} {handed : α}
    (same : weigh handed = weigh item) (valid : account.valid memory) (parted : shelf.items = fresher ++ item :: colder)
    (kept : shelf'.items = fresher ++ colder)
    (counted : shelf'.tally = { shelf.tally with hits := shelf.tally.hits + 1 }) :
    Underway account weigh (.lookup care requested) shelf memory ⟨[handed], 0, 0, 0⟩ shelf' memory where
  valid := valid
  conserved := by
    rw [parted, kept, total_append, total_append, total_cons, total_cons, total_nil, same]
    simp only [offers, total_nil]
    omega
  makes := by
    rw [counted]
    rfl
  lookups := by
    rw [counted]
    exact Nat.add_right_comm _ _ _
  discards := by
    rw [counted]
    rfl
  puts := by
    rw [counted]
    exact Nat.le_refl _

theorem underway_making {care : Care} {requested : σ} (valid : account.valid memory)
    (same : shelf'.items = shelf.items)
    (counted : shelf'.tally = { shelf.tally with misses := shelf.tally.misses + 1 }) :
    Underway account weigh (.lookup care requested) shelf memory ⟨[], 1, 0, 0⟩ shelf' memory where
  valid := valid
  conserved := by
    rw [same]
    rfl
  makes := by
    rw [counted]
    exact (Nat.add_assoc _ _ _).trans (congrArg _ (Nat.add_comm _ _))
  lookups := by
    rw [counted]
    rfl
  discards := by
    rw [counted]
    rfl
  puts := by
    rw [counted]
    exact Nat.le_refl _

/-- The attendant is asked about an object that is put, or it is discarded at once. -/
theorem underway_vetting (undecided : Nat) (few : undecided ≤ 1) (valid : account.valid memory) :
    Underway account weigh (.put item : Call α σ) shelf memory ⟨[item], 0, 1, undecided⟩ shelf memory where
  valid := valid
  conserved := rfl
  makes := rfl
  lookups := rfl
  discards := by
    simp only [offers, List.length_singleton]
    omega
  puts := Nat.add_le_add_left few _

theorem underway_shedding {evicted : List α} (quiet : request.Quiet) (valid : account.valid memory)
    (sheds : Shelf.Sheds shelf (evicted, shelf')) :
    Underway account weigh request shelf memory (.discarding evicted) shelf' memory := by
  obtain ⟨parted, counted⟩ := sheds
  dsimp only at parted counted
  constructor
  case valid => exact valid
  case conserved =>
    rw [offers_of_quiet quiet, parted, total_append, total_reverse, total_nil, Remains.discarding]
    dsimp only
    omega
  case makes =>
    rw [counted]
    rfl
  case lookups =>
    rw [counted, requests_of_silent quiet.silent]
    rfl
  case discards =>
    rw [offers_of_quiet quiet, counted, Remains.discarding, List.length_nil]
    dsimp only
    omega
  case puts =>
    rw [counted]
    exact Nat.le_add_right _ _

/-- Only discarding is left. -/
theorem Underway.discarding {items : List α}
    (underway : Underway account weigh request shelf memory (.discarding items) shelf' memory')
    (silent : request.Silent) (reply : (protocol α σ).Reply request) :
    Underway account weigh request shelf memory (remains (discard reply items)) shelf' memory' := by
  rw [remains_discard silent]
  exact underway

theorem underway_of_starts [Ord σ] [DecidableEq σ] [Recyclable α σ] {settings : Settings}
    (wiped : ∀ item, weigh (Recyclable.wipe item) = weigh item) (valid : account.valid memory)
    {progressed : Progress (Work request) ((protocol α σ).Reply request) × Shelf α}
    (starts : Shelf.Starts settings shelf request progressed) :
    Underway account weigh request shelf memory (remains progressed.1) progressed.2 memory := by
  cases starts with
  | @recycles shelf' fresher colder item care requested parted kept serving counted =>
      have handed : weigh (care.hand item) = weigh item := by
        unfold Care.hand
        split
        · rfl
        · exact wiped item
      exact underway_serving handed valid parted kept counted
  | misses care requested same counted => exact underway_making valid same counted
  | vets item admits => exact underway_vetting 1 (Nat.le_refl 1) valid
  | declines item => exact underway_vetting 0 (Nat.zero_le 1) valid
  | sheds request quiet reply sheds => exact (underway_shedding quiet valid sheds).discarding quiet.silent reply

/-! ### How it goes on -/

theorem Underway.supplied (underway : Underway account weigh request shelf memory ⟨[], 1, 0, 0⟩ shelf' memory')
    (moves : account.Moves memory' memory'' (-weigh item) 1 0) :
    Underway account weigh request shelf memory ⟨[item], 0, 0, 0⟩ shelf' memory'' := by
  obtain ⟨_, conserved, makes, lookups, discards, puts⟩ := underway
  obtain ⟨valid, worth, made, discarded⟩ := moves
  dsimp only at conserved makes discards
  rw [total_nil] at conserved
  refine ⟨valid, ?_, ?_, lookups, ?_, puts⟩
  · rw [total_cons, total_nil]
    omega
  · dsimp only
    omega
  · rw [discarded]
    exact discards

/-- The attendant disapproves, or the object is too large. -/
theorem Underway.refused (underway : Underway account weigh request shelf memory ⟨[item], 0, 1, 1⟩ shelf' memory')
    (moves : account.Moves memory' memory'' 0 0 0) :
    Underway account weigh request shelf memory (.discarding [item]) shelf' memory'' := by
  obtain ⟨_, conserved, makes, lookups, discards, puts⟩ := underway
  obtain ⟨valid, worth, made, discarded⟩ := moves
  refine ⟨valid, ?_, ?_, lookups, ?_, Nat.le_of_succ_le puts⟩
  · rw [worth, Int.add_zero]
    exact conserved
  · rw [made]
    exact makes
  · rw [discarded]
    exact discards

theorem Underway.admitted {evicted kept : List α}
    (underway : Underway account weigh request shelf memory ⟨[item], 0, 1, 1⟩ shelf' memory')
    (moves : account.Moves memory' memory'' 0 0 0) (parted : shelf'.items = kept ++ evicted.reverse)
    (fresh : shelf''.items = item :: kept)
    (counted : shelf''.tally = { shelf'.tally with
      puts := shelf'.tally.puts + 1
      evictions := shelf'.tally.evictions + evicted.length }) :
    Underway account weigh request shelf memory (.discarding evicted) shelf'' memory'' := by
  obtain ⟨_, conserved, makes, lookups, discards, puts⟩ := underway
  obtain ⟨valid, worth, made, discarded⟩ := moves
  rw [parted, total_append, total_reverse, total_cons, total_nil] at conserved
  dsimp only at discards
  refine ⟨valid, ?_, ?_, ?_, ?_, ?_⟩
  · rw [fresh, total_cons, Remains.discarding]
    dsimp only
    omega
  · rw [counted, made]
    exact makes
  · rw [counted]
    exact lookups
  · rw [counted, Remains.discarding]
    dsimp only
    omega
  · rw [counted]
    exact puts

theorem Underway.discarded {rest : List α}
    (underway : Underway account weigh request shelf memory (.discarding (item :: rest)) shelf' memory')
    (moves : account.Moves memory' memory'' (weigh item) 0 1) :
    Underway account weigh request shelf memory (.discarding rest) shelf' memory'' := by
  obtain ⟨_, conserved, makes, lookups, discards, puts⟩ := underway
  obtain ⟨valid, worth, made, discarded⟩ := moves
  simp only [Remains.discarding, total_cons, List.length_cons] at conserved makes discards
  refine ⟨valid, ?_, ?_, lookups, ?_, puts⟩
  · rw [Remains.discarding]
    dsimp only
    omega
  · rw [made]
    exact makes
  · rw [Remains.discarding]
    dsimp only
    omega

theorem Underway.resumed {work : Work request} {answer : (protocol α σ).Answer work.query} (proper : work.Proper)
    (underway : Underway account weigh request shelf memory work.remains shelf' memory')
    (answers : account.Answers weigh memory' memory'' work answer)
    {progressed : Progress (Work request) ((protocol α σ).Reply request) × Shelf α}
    (resumes : Shelf.Resumes shelf' work answer progressed) :
    Underway account weigh request shelf memory (remains progressed.1) progressed.2 memory'' := by
  cases resumes with
  | supplies care requested item => exact underway.supplied answers
  | refuses item approved => exact underway.refused answers
  | admits item parted fresh counted =>
      exact (underway.admitted answers parted fresh counted).discarding (put_silent item) ()
  | discards item rest reply heard =>
      exact (Underway.discarded underway answers).discarding proper reply

end Steps

/-! ## Whole calls -/

variable [DecidableEq σ] [Hashable σ] [Ord σ] [Recyclable α σ]

structure Settled (account : Account φ) (weigh : α → Int) (request : Call α σ) (stock : Stock α σ) (memory : φ)
    (outcome : (protocol α σ).Reply request × Stock α σ × φ) : Prop where
  coherent : Coherent outcome.2.1
  valid : account.valid outcome.2.2
  /-- Nothing is lost or doubled. -/
  conserved : total weigh outcome.2.1.items + account.worth outcome.2.2 +
      total weigh (serves (.replied request outcome.1)) =
    total weigh stock.items + account.worth memory + total weigh (offers (.called request))
  makes : account.makes outcome.2.2 + stock.tally.misses = account.makes memory + outcome.2.1.tally.misses
  lookups : outcome.2.1.tally.hits + outcome.2.1.tally.misses =
    stock.tally.hits + stock.tally.misses + (requests (.called request)).length
  /-- What is evicted is discarded, and so is what is offered and not admitted. -/
  discards : account.discards outcome.2.2 + outcome.2.1.tally.puts + stock.tally.evictions =
    account.discards memory + stock.tally.puts + outcome.2.1.tally.evictions + (offers (.called request)).length
  puts : outcome.2.1.tally.puts ≤ stock.tally.puts + (offers (.called request)).length

variable [Std.TransOrd σ] [Std.LawfulEqOrd σ] {account : Account φ} {weigh : α → Int} {memory : φ}

theorem perform_settled {answer : (query : (protocol α σ).Query) → φ → (protocol α σ).Answer query × φ}
    (kept : account.Kept weigh answer) (wiped : ∀ item, weigh (Recyclable.wipe item) = weigh item)
    (settings : Settings) (request : Call α σ) {stock : Stock α σ} (coherent : Coherent stock)
    (valid : account.valid memory) :
    Settled account weigh request stock memory
      ((service settings).perform (.aloof answer) request stock memory) := by
  let holds : Progress (Work request) ((protocol α σ).Reply request) → Stock α σ → φ → Prop :=
    fun progress stock' memory' => Coherent stock' ∧ (∀ work, progress = .waiting work → work.Proper) ∧
      Underway account weigh request stock.shelf memory (remains progress) stock'.shelf memory'
  have ended := Service.perform_keeps (service settings) (.aloof answer) holds ?_ stock memory ?_
  · obtain ⟨coherent', _, underway⟩ := ended
    exact ⟨coherent', underway.valid, underway.conserved, underway.makes, underway.lookups, underway.discards,
      underway.puts⟩
  · rintro work stock' memory' ⟨coherent', proper, underway⟩
    have was := proper work rfl
    have resumes := stock'.shelf.resume_meets work (answer work.query memory').1
    have resumed := underway.resumed was (kept.answers work underway.valid) resumes
    obtain ⟨outcome, state, coherent''⟩ := coherent'.resume_follows work (answer work.query memory').1
    rw [← outcome, ← state] at resumed
    refine ⟨coherent'', fun later waits => ?_, resumed⟩
    have waiting : stock'.shelf.resume work (answer work.query memory').1 = (.waiting later, _) :=
      Prod.ext (outcome.symm.trans waits) rfl
    rw [waiting] at resumes
    exact resumes.proper was
  · have starts := stock.shelf.start_meets settings request
    have started := underway_of_starts wiped valid starts
    obtain ⟨outcome, state, coherent'⟩ := coherent.start_follows settings request
    rw [← outcome, ← state] at started
    refine ⟨coherent', fun work waits => ?_, started⟩
    have waiting : stock.shelf.start settings request = (.waiting work, _) :=
      Prod.ext (outcome.symm.trans waits) rfl
    rw [waiting] at starts
    exact starts.proper

theorem carry_out_settled {answer : (query : (protocol α σ).Query) → φ → (protocol α σ).Answer query × φ}
    (kept : account.Kept weigh answer) (wiped : ∀ item, weigh (Recyclable.wipe item) = weigh item)
    (settings : Settings) (request : Call α σ) {stock : Stock α σ} (coherent : Coherent stock)
    (valid : account.valid memory) :
    Settled account weigh request stock memory ((service settings).carryOut (.aloof answer) request stock memory) :=
  (congrArg (Settled account weigh request stock memory)
    (Service.carry_out_eq_perform (service settings) (.aloof answer) stock memory)).mpr
    (perform_settled kept wiped settings request coherent valid)

end Pool

end MemoryBudget
