import MemoryBudget.Pool.Tiers
import MemoryBudget.Proofs.Pool.Accounts
import MemoryBudget.Proofs.Pool.Tagging
import MemoryBudget.Block

/-!
# Two tiers conserve objects

An object that was put into the upper of two pools, or allocated for the lower one, is in one place: in the upper pool,
in the lower pool, in the hands of the user, or freed. The lower pool keeps account of what its keeper allocates and
frees, so it is fit to attend the upper pool, which then keeps account as well.
-/

set_option autoImplicit false

namespace MemoryBudget

namespace Pool

open Stock

variable {α σ ς ι : Type} {weigh : α → Int}

/-! ## The keeper -/

def Books.account (weigh : α → Int) : Account (Books α ς) where
  valid _ := True
  worth books := total weigh books.freed - total weigh books.allocated
  makes books := books.allocated.length
  discards books := books.freed.length

theorem Keeper.kept (keeper : Keeper α σ ς) : (Books.account weigh).Kept weigh keeper.answer where
  made requested books _ := by
    refine ⟨trivial, ?_, ?_, rfl⟩
    · simp only [Keeper.answer, Books.account, total_append, total_cons, total_nil]
      omega
    · simp only [Keeper.answer, Books.account, List.length_append, List.length_singleton]
  approved item books _ := ⟨trivial, (Int.add_zero _).symm, rfl, rfl⟩
  discarded item books _ := by
    refine ⟨trivial, ?_, rfl, ?_⟩
    · simp only [Keeper.answer, Books.account, total_append, total_cons, total_nil]
      omega
    · simp only [Keeper.answer, Books.account, List.length_append, List.length_singleton]

theorem Upkeep.call_quiet (upkeep : Upkeep) : (upkeep.call : Call α σ).Quiet := by
  cases upkeep with
  | _ => trivial

variable [DecidableEq σ] [Hashable σ] [Ord σ] [Recyclable α σ]

/-! ## The lower pool -/

structure Reserve.InOrder (reserve : Reserve α σ ς) : Prop where
  coherent : Coherent reserve.stock
  allocated : reserve.books.allocated.length = reserve.stock.tally.misses
  freed : reserve.books.freed.length + reserve.stock.tally.puts = reserve.received + reserve.stock.tally.evictions
  admitted : reserve.stock.tally.puts ≤ reserve.received

def Reserve.account (weigh : α → Int) : Account (Reserve α σ ς) where
  valid reserve := reserve.InOrder
  worth reserve := total weigh reserve.stock.items + (Books.account weigh).worth reserve.books
  makes reserve := reserve.stock.tally.hits + reserve.stock.tally.misses
  discards reserve := reserve.received

variable [Std.TransOrd σ] [Std.LawfulEqOrd σ] {tiering : Tiering α σ ς}

/-- What a call on the lower pool leaves, but for the count of what it was given. -/
structure Served (weigh : α → Int) (request : Call α σ) (reserve : Reserve α σ ς)
    (outcome : (protocol α σ).Reply request × Reserve α σ ς) : Prop where
  coherent : Coherent outcome.2.stock
  allocated : outcome.2.books.allocated.length = outcome.2.stock.tally.misses
  freed : outcome.2.books.freed.length + outcome.2.stock.tally.puts =
    reserve.received + outcome.2.stock.tally.evictions + (offers (.called request)).length
  admitted : outcome.2.stock.tally.puts ≤ reserve.received + (offers (.called request)).length
  received : outcome.2.received = reserve.received
  conserved : (Reserve.account weigh).worth outcome.2 + total weigh (serves (.replied request outcome.1)) =
    (Reserve.account weigh).worth reserve + total weigh (offers (.called request))
  lookups : (Reserve.account weigh).makes outcome.2 =
    (Reserve.account weigh).makes reserve + (requests (.called request)).length

theorem call_lower_served (tiering : Tiering α σ ς) (wiped : ∀ item, weigh (Recyclable.wipe item) = weigh item)
    (request : Call α σ) {reserve : Reserve α σ ς} (inOrder : reserve.InOrder) :
    Served weigh request reserve (tiering.callLower request reserve) := by
  have valid : (Books.account weigh).valid reserve.books := trivial
  have settled := carry_out_settled tiering.keeper.kept wiped tiering.lower request inOrder.coherent valid
  obtain ⟨_, allocated, freed, admitted⟩ := inOrder
  rw [Tiering.callLower]
  generalize (service tiering.lower).carryOut _ request reserve.stock reserve.books = outcome at settled ⊢
  obtain ⟨reply, stock, books⟩ := outcome
  obtain ⟨coherent, _, conserved, makes, lookups, discards, puts⟩ := settled
  dsimp only [Books.account, Reserve.account] at *
  refine ⟨coherent, ?_, ?_, ?_, rfl, ?_, ?_⟩
  all_goals dsimp only [Books.account, Reserve.account]
  all_goals omega

omit [Std.TransOrd σ] [Std.LawfulEqOrd σ] in
theorem Served.in_order {request : Call α σ} {reserve : Reserve α σ ς}
    {outcome : (protocol α σ).Reply request × Reserve α σ ς} (served : Served weigh request reserve outcome)
    (nothing : offers (.called request) = []) : outcome.2.InOrder := by
  obtain ⟨coherent, allocated, freed, admitted, received, _, _⟩ := served
  rw [nothing] at freed admitted
  rw [← received] at freed admitted
  exact ⟨coherent, allocated, freed, admitted⟩

/-- The lower pool is fit to attend the upper one. -/
theorem Tiering.kept (tiering : Tiering α σ ς) (wiped : ∀ item, weigh (Recyclable.wipe item) = weigh item) :
    (Reserve.account weigh).Kept weigh tiering.answer where
  made requested reserve inOrder := by
    have served := call_lower_served tiering wiped (.lookup .dirty requested) inOrder
    have conserved : (Reserve.account weigh).worth (tiering.answer (.make requested) reserve).2 +
        (weigh (tiering.answer (.make requested) reserve).1 + 0) = (Reserve.account weigh).worth reserve + 0 :=
      served.conserved
    refine ⟨served.in_order rfl, ?_, served.lookups, served.received⟩
    omega
  approved item reserve inOrder :=
    ⟨⟨inOrder.coherent, inOrder.allocated, inOrder.freed, inOrder.admitted⟩, (Int.add_zero _).symm, rfl, rfl⟩
  discarded item reserve inOrder := by
    obtain ⟨coherent, allocated, freed, admitted, received, conserved, lookups⟩ :=
      call_lower_served tiering wiped (.put item) inOrder
    have counted : (tiering.answer (.discard item) reserve).2.received = reserve.received + 1 :=
      congrArg Nat.succ received
    refine ⟨⟨coherent, allocated, ?_, ?_⟩, ?_, lookups, counted⟩
    · rw [counted, Nat.add_right_comm]
      exact freed
    · rw [counted]
      exact admitted
    · exact (Int.add_zero _).symm.trans (conserved.trans (congrArg _ (Int.add_zero _)))

/-! ## Both pools -/

namespace Tiers

/-- The work on an object in hand does not change what is looked at. -/
def Operation.Keeps (look : α → ι) : Operation α σ → Prop
  | .rework _ change => ∀ item, look (change item) = look item
  | _ => True

/-- Both pools are in order, and their counts agree, while some objects are on their way from one place to another and
some puts are counted but not made yet. -/
structure Balanced (weigh : α → Int) (tiers : Tiers α σ ς) (carried : List α) (due : Nat) : Prop where
  coherent : Coherent tiers.upper
  inOrder : tiers.reserve.InOrder
  conserved : total weigh tiers.upper.items + (Reserve.account weigh).worth tiers.reserve + total weigh tiers.hands +
    total weigh carried = total weigh tiers.brought
  supplied : tiers.reserve.stock.tally.hits + tiers.reserve.stock.tally.misses = tiers.upper.tally.misses
  passed : tiers.reserve.received + tiers.upper.tally.puts + due = tiers.offered + tiers.upper.tally.evictions
  admitted : tiers.upper.tally.puts + due ≤ tiers.offered

variable {tiers : Tiers α σ ς} {carried : List α} {due : Nat}

omit [Std.TransOrd σ] [Std.LawfulEqOrd σ] in
theorem balanced_tiers (weigh : α → Int) (tiering : Tiering α σ ς) (memory : ς) :
    Balanced weigh (tiering.tiers memory) [] 0 where
  coherent := of_limit_coherent tiering.upper.limit
  inOrder := ⟨of_limit_coherent tiering.lower.limit, rfl, rfl, Nat.le_refl 0⟩
  conserved := rfl
  supplied := rfl
  passed := rfl
  admitted := Nat.le_refl 0

omit [Std.TransOrd σ] [Std.LawfulEqOrd σ] in
/-- Objects may go between the hands, the outside and the way to the upper pool. -/
theorem Balanced.handed {hands' brought' carried' : List α} (balanced : Balanced weigh tiers carried due)
    (handed : total weigh hands' + total weigh carried' + total weigh tiers.brought =
      total weigh tiers.hands + total weigh carried + total weigh brought') :
    Balanced weigh { tiers with hands := hands', brought := brought' } carried' due where
  coherent := balanced.coherent
  inOrder := balanced.inOrder
  conserved := by
    have conserved := balanced.conserved
    dsimp only
    omega
  supplied := balanced.supplied
  passed := balanced.passed
  admitted := balanced.admitted

/-- A call on the upper pool takes what is offered, and what it serves is on its way. -/
theorem Balanced.called (tiering : Tiering α σ ς) (wiped : ∀ item, weigh (Recyclable.wipe item) = weigh item)
    (request : Call α σ)
    (balanced : Balanced weigh tiers (offers (.called request)) (offers (.called request)).length) :
    Balanced weigh (tiers.call tiering request).2 (serves (.replied request (tiers.call tiering request).1)) 0 := by
  obtain ⟨coherent, inOrder, conserved, supplied, passed, admitted⟩ := balanced
  have settled := carry_out_settled (tiering.kept wiped) wiped tiering.upper request coherent inOrder
  rw [Tiers.call]
  generalize (service tiering.upper).carryOut _ request tiers.upper tiers.reserve = outcome at settled ⊢
  obtain ⟨reply, upper, reserve⟩ := outcome
  obtain ⟨coherent', inOrder', moved, made, _, discarded, puts⟩ := settled
  refine ⟨coherent', inOrder', ?_, ?_, ?_, ?_⟩
  all_goals dsimp only [Reserve.account] at *
  · omega
  · omega
  · omega
  · omega

theorem Balanced.put {item : α} (balanced : Balanced weigh tiers [item] 0)
    (wiped : ∀ item, weigh (Recyclable.wipe item) = weigh item) : Balanced weigh (tiers.put tiering item) [] 0 := by
  have ready : Balanced weigh { tiers with offered := tiers.offered + 1 } [item] 1 :=
    { balanced with
      passed := by
        rw [Nat.add_right_comm tiers.offered, ← balanced.passed]
      admitted := Nat.succ_le_succ balanced.admitted }
  exact Balanced.called tiering wiped (.put item) ready

/-- The upper pool gives way, and perhaps the lower one as well. -/
theorem Balanced.quietly {request : Call α σ} (balanced : Balanced weigh tiers [] 0)
    (wiped : ∀ item, weigh (Recyclable.wipe item) = weigh item) (quiet : request.Quiet) :
    Balanced weigh (tiers.call tiering request).2 [] 0 := by
  have ready : Balanced weigh tiers (offers (.called request)) (offers (.called request)).length := by
    rw [offers_of_quiet quiet]
    exact balanced
  rw [← serves_of_quiet quiet (tiers.call tiering request).1]
  exact ready.called tiering wiped request

/-- The lower pool gives way on its own. -/
theorem Balanced.relieved {request : Call α σ} (balanced : Balanced weigh tiers carried due)
    (wiped : ∀ item, weigh (Recyclable.wipe item) = weigh item) (quiet : request.Quiet) :
    Balanced weigh { tiers with reserve := (tiering.callLower request tiers.reserve).2 } carried due := by
  have served := call_lower_served tiering wiped request balanced.inOrder
  have inOrder := served.in_order (offers_of_quiet quiet)
  obtain ⟨_, _, _, _, received, conserved, lookups⟩ := served
  rw [offers_of_quiet quiet, serves_of_quiet quiet, total_nil] at conserved
  rw [requests_of_silent quiet.silent] at lookups
  refine ⟨balanced.coherent, inOrder, ?_, ?_, ?_, balanced.admitted⟩
  · rw [← balanced.conserved]
    dsimp only
    omega
  · exact lookups.trans balanced.supplied
  · dsimp only
    rw [received]
    exact balanced.passed

theorem Balanced.performed (balanced : Balanced weigh tiers [] 0)
    (wiped : ∀ item, weigh (Recyclable.wipe item) = weigh item) (operation : Operation α σ)
    (faithful : operation.Keeps weigh) : Balanced weigh (tiers.perform tiering operation) [] 0 := by
  cases operation with
  | bring item =>
      refine Balanced.put (balanced.handed ?_) wiped
      rw [total_append, total_cons, total_nil]
      omega
  | giveBack place =>
      rw [Tiers.perform]
      split
      · exact balanced
      · next item found =>
          refine Balanced.put (balanced.handed ?_) wiped
          rw [total_eraseIdx weigh found, total_cons, total_nil]
          omega
  | rework place change =>
      refine balanced.handed ?_
      rw [total_modify weigh faithful]
  | lookup care requested =>
      have called := Balanced.called tiering wiped (.lookup care requested) balanced
      rw [Tiers.perform]
      generalize tiers.call tiering (.lookup care requested) = outcome at called ⊢
      obtain ⟨item, tiers'⟩ := outcome
      refine called.handed ?_
      rw [total_append, total_nil]
      exact congrArg (· + _) (Int.add_zero _)
  | upkeep tier upkeep =>
      cases tier with
      | upper => exact balanced.quietly wiped upkeep.call_quiet
      | lower => exact balanced.relieved wiped upkeep.call_quiet

theorem Balanced.ran (balanced : Balanced weigh tiers [] 0)
    (wiped : ∀ item, weigh (Recyclable.wipe item) = weigh item) (operations : List (Operation α σ))
    (faithful : ∀ operation ∈ operations, operation.Keeps weigh) :
    Balanced weigh (tiers.run tiering operations) [] 0 := by
  induction operations generalizing tiers with
  | nil => exact balanced
  | cons operation later ih =>
      obtain ⟨now, next⟩ := List.forall_mem_cons.mp faithful
      exact ih (balanced.performed wiped operation now) next

/-! ## One object -/

omit [DecidableEq σ] [Hashable σ] [Ord σ] [Recyclable α σ] [Std.TransOrd σ] [Std.LawfulEqOrd σ] in
theorem total_one [DecidableEq ι] (identity : α → ι) (one : ι) (items : List α) :
    total (fun item => if identity item = one then 1 else 0) items = ((items.map identity).count one : Int) := by
  induction items with
  | nil => rfl
  | cons item rest ih =>
      rw [total_cons, ih, List.map_cons, List.count_cons]
      by_cases same : identity item = one
      · rw [if_pos same, if_pos (beq_iff_eq.mpr same)]
        omega
      · rw [if_neg same, if_neg (mt beq_iff_eq.mp same)]
        omega

omit [DecidableEq σ] [Hashable σ] [Ord σ] [Recyclable α σ] [Std.TransOrd σ] [Std.LawfulEqOrd σ] in
theorem Operation.Keeps.comp {κ : Type} {identity : α → ι} {operation : Operation α σ}
    (keeps : operation.Keeps identity) (look : ι → κ) : operation.Keeps fun item => look (identity item) := by
  cases operation with
  | rework place change => exact fun item => congrArg look (keeps item)
  | _ => trivial

inductive Station where
  | upper
  | lower
  | hands
  | freed
  deriving DecidableEq

def objects (tiers : Tiers α σ ς) : Station → List α
  | .upper => tiers.upper.items
  | .lower => tiers.reserve.stock.items
  | .hands => tiers.hands
  | .freed => tiers.reserve.books.freed

def entered (tiers : Tiers α σ ς) : List α :=
  tiers.brought ++ tiers.reserve.books.allocated

def sightings [DecidableEq ι] (identity : α → ι) (tiers : Tiers α σ ς) (object : ι) (station : Station) : Nat :=
  ((tiers.objects station).map identity).count object

/-- Nothing is lost, doubled, allocated or freed between two pools. -/
structure Conserved [DecidableEq ι] (identity : α → ι) (tiers : Tiers α σ ς) : Prop where
  /-- What is in all places together is what has entered. -/
  everywhere : ∀ object, tiers.sightings identity object .upper + tiers.sightings identity object .lower +
    tiers.sightings identity object .hands + tiers.sightings identity object .freed =
      (tiers.entered.map identity).count object
  /-- If no two objects that have entered are the same one, each of them is in one place, and there once. -/
  one_place : (tiers.entered.map identity).Nodup → ∀ object ∈ tiers.entered.map identity, ∃ place, ∀ station,
    tiers.sightings identity object station = if station = place then 1 else 0
  upper_misses : tiers.upper.tally.misses = tiers.reserve.stock.tally.hits + tiers.reserve.stock.tally.misses
  allocations : tiers.reserve.books.allocated.length = tiers.reserve.stock.tally.misses
  upper_admits : tiers.upper.tally.puts ≤ tiers.offered
  /-- The lower pool receives what the upper pool evicts or does not admit. -/
  receipts : tiers.reserve.received = tiers.upper.tally.evictions + (tiers.offered - tiers.upper.tally.puts)
  lower_admits : tiers.reserve.stock.tally.puts ≤ tiers.reserve.received
  /-- The keeper frees what the lower pool evicts or does not admit. -/
  frees : tiers.reserve.books.freed.length =
    tiers.reserve.stock.tally.evictions + (tiers.reserve.received - tiers.reserve.stock.tally.puts)

omit [Std.TransOrd σ] [Std.LawfulEqOrd σ] in
theorem Balanced.everywhere [DecidableEq ι] {identity : α → ι} {object : ι}
    (balanced : Balanced (fun item => if identity item = object then 1 else 0) tiers [] 0) :
    tiers.sightings identity object .upper + tiers.sightings identity object .lower +
      tiers.sightings identity object .hands + tiers.sightings identity object .freed =
        (tiers.entered.map identity).count object := by
  have conserved := balanced.conserved
  dsimp only [Reserve.account, Books.account] at conserved
  rw [total_nil, total_one, total_one, total_one, total_one, total_one, total_one] at conserved
  rw [entered, List.map_append, List.count_append]
  dsimp only [sightings, objects]
  omega

omit [Ord σ] [Recyclable α σ] [Std.TransOrd σ] [Std.LawfulEqOrd σ] in
theorem one_place_of_sum [DecidableEq ι] {identity : α → ι} {object : ι}
    (one : tiers.sightings identity object .upper + tiers.sightings identity object .lower +
      tiers.sightings identity object .hands + tiers.sightings identity object .freed = 1) :
    ∃ place, ∀ station, tiers.sightings identity object station = if station = place then 1 else 0 := by
  have somewhere : ∃ place, 0 < tiers.sightings identity object place := by
    by_contra nowhere
    have none (place : Station) : tiers.sightings identity object place = 0 :=
      Nat.eq_zero_of_not_pos fun some => nowhere ⟨place, some⟩
    rw [none .upper, none .lower, none .hands, none .freed] at one
    exact absurd one (by decide)
  obtain ⟨place, some⟩ := somewhere
  refine ⟨place, fun station => ?_⟩
  cases place <;> cases station <;> simp only [reduceCtorEq, if_true, if_false] <;> omega

/-- Whatever is done with two empty pools, one behind the other, no object is lost or doubled on the way. -/
theorem objects_are_conserved [DecidableEq ι] (identity : α → ι)
    (wiped : ∀ item, identity (Recyclable.wipe item) = identity item) (tiering : Tiering α σ ς) (memory : ς)
    (operations : List (Operation α σ)) (faithful : ∀ operation ∈ operations, operation.Keeps identity) :
    Conserved identity ((tiering.tiers memory).run tiering operations) := by
  have balanced (look : ι → Int) :
      Balanced (fun item => look (identity item)) ((tiering.tiers memory).run tiering operations) [] 0 :=
    (balanced_tiers _ tiering memory).ran (fun item => congrArg look (wiped item)) operations
      fun operation mem => (faithful operation mem).comp look
  obtain ⟨_, ⟨_, allocated, freed, kept⟩, _, supplied, passed, admitted⟩ := balanced fun _ => 0
  have everywhere (object : ι) := (balanced fun other => if other = object then 1 else 0).everywhere
  constructor
  case everywhere => exact everywhere
  case one_place =>
    intro distinct object mem
    exact one_place_of_sum ((everywhere object).trans (List.count_eq_one_of_mem distinct mem))
  case upper_misses => exact supplied.symm
  case allocations => exact allocated
  case upper_admits => exact admitted
  case receipts => omega
  case lower_admits => exact kept
  case frees => omega

/-- Eight objects, of which one was allocated: one is in the upper pool, two are in the lower one, one is in hand and
four were freed. -/
theorem eight_objects_in_four_places :
    let keeper : Keeper (Tagged (Block .sameShape)) UInt64 Nat :=
      { allocate := fun shape number => (⟨some number, Block.fresh shape⟩, number + 1)
        approves := fun _ _ number => (true, number)
        free := fun _ number => number }
    let tiering : Tiering (Tagged (Block .sameShape)) UInt64 Nat :=
      { upper := { limit := 30, largestItem := none, matching := .exact, clearsAt := Pressure.background }
        lower := { limit := 20, largestItem := none, matching := .exact, clearsAt := Pressure.background }
        keeper := keeper }
    let brings (number : Nat) (bytes : UInt64) : Operation (Tagged (Block .sameShape)) UInt64 :=
      .bring ⟨some number, ⟨10, bytes, 0, true⟩⟩
    let tiers := (tiering.tiers 100).run tiering
      [.lookup .clean 10, .rework 0 fun tagged => { tagged with item := { tagged.item with tag := 7 } },
        brings 0 10, brings 1 10, brings 2 10, brings 3 10, brings 4 10, .giveBack 0, brings 5 40,
        .lookup .dirty 10, .upkeep .upper .clear, brings 6 10]
    tiers.upper.items.map (·.tag) = [some 6] ∧ tiers.reserve.stock.items.map (·.tag) = [some 4, some 3] ∧
      tiers.hands.map (·.tag) = [some 100] ∧
        tiers.reserve.books.freed.map (·.tag) = [some 0, some 5, some 1, some 2] ∧
          Conserved (·.tag) tiers := by
  intro keeper tiering brings tiers
  refine ⟨?_, ?_, ?_, ?_, ?_⟩
  · cbv
  · cbv
  · cbv
  · cbv
  · exact objects_are_conserved _ (fun _ => rfl) tiering 100 _ (by simp [Operation.Keeps, brings])

end Tiers

end Pool

end MemoryBudget
