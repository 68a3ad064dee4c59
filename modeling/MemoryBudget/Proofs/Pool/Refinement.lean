import MemoryBudget.Block
import MemoryBudget.Pool.Basic
import MemoryBudget.Proofs.Dialogue.Versions
import MemoryBudget.Proofs.Pool.Meaning
import Mathlib

/-!
# Pools behave as plain lists

A pool over a stock and a pool over a shelf differ in their states only. Each start of a call and each answer of the
client does to the shelf of a stock what it does to the stock, so no client ever hears a difference: not in the
objects it is handed, not in what it is asked to make, to approve or to discard, and not in the sizes and counts.
-/

set_option autoImplicit false

namespace MemoryBudget

namespace Pool

open Stock

variable {α σ ρ φ β : Type} [DecidableEq σ] [Hashable σ] [Ord σ] [Recyclable α σ]

namespace Stock

theorem Follows.discards {actual : List α × Stock α σ} {meant : List α × Shelf α} (follows : Follows actual meant)
    (request : Call α σ) (reply : (protocol α σ).Reply request) :
    Follows (discard reply actual.1, actual.2) (discard reply meant.1, meant.2) where
  outcome := congrArg (discard reply) follows.outcome
  state := follows.state
  coherent := follows.coherent

/-- A coherent stock that is as it was. -/
theorem Coherent.unchanged {stock : Stock α σ} (coherent : Coherent stock) (outcome : ρ) :
    Follows (outcome, stock) (outcome, stock.shelf) where
  outcome := rfl
  state := rfl
  coherent := coherent

/-- A pool over the shelf does the same. -/
theorem Follows.mirrored {actual : ρ × Stock α σ} {meant : ρ × Shelf α} (follows : Follows actual meant) :
    meant = (actual.1, actual.2.shelf) ∧ Coherent actual.2 :=
  ⟨Prod.ext follows.outcome.symm follows.state.symm, follows.coherent⟩

variable [Std.TransOrd σ] [Std.LawfulEqOrd σ] {stock : Stock α σ}

theorem Coherent.lookup_follows (coherent : Coherent stock) (settings : Settings) (care : Care) (requested : σ) :
    Follows (start settings (.lookup care requested) stock)
      (Shelf.start settings (.lookup care requested) stock.shelf) := by
  have follows := coherent.take_follows (if care = .exact then .exact else settings.matching) requested
  rw [start, Shelf.start]
  cases taken : stock.take (if care = .exact then .exact else settings.matching) requested with
  | mk found stock' =>
      cases taken' : stock.shelf.take (if care = .exact then .exact else settings.matching) requested with
      | mk found' shelf' =>
          rw [taken, taken'] at follows
          obtain ⟨outcome, state, coherent'⟩ := follows
          cases outcome
          cases state
          cases found with
          | none => exact coherent'.unchanged _
          | some item => exact coherent'.unchanged _

theorem Coherent.start_follows (coherent : Coherent stock) (settings : Settings) (request : Call α σ) :
    Follows (start settings request stock) (Shelf.start settings request stock.shelf) := by
  cases request with
  | lookup care requested => exact coherent.lookup_follows settings care requested
  | put item =>
      rw [start, Shelf.start]
      by_cases admitted : settings.admits item = true
      · rw [if_pos admitted, if_pos admitted]
        exact coherent.unchanged _
      · rw [if_neg admitted, if_neg admitted]
        exact coherent.unchanged _
  | trimTo target => exact (coherent.trim_to_follows target).discards (.trimTo target) ()
  | clear => exact coherent.clear_follows.discards .clear ()
  | trim pressure => exact (coherent.trim_follows settings.clearsAt pressure).discards (.trim pressure) ()
  | rescale multiplier =>
      rw [start, Shelf.start]
      rcases coherent.rescale_follows multiplier with
        ⟨invalid, refused, refused'⟩ | ⟨actual, meant, ok, ok', follows⟩
      · rw [refused, refused']
        exact coherent.unchanged _
      · rw [ok, ok']
        exact follows.discards (.rescale multiplier) (.ok ())
  | usage =>
      rw [start, Shelf.start, coherent.usage_eq]
      exact coherent.unchanged _
  | tally => exact coherent.unchanged _

theorem Coherent.resume_follows (coherent : Coherent stock) {request : Call α σ} (work : Work request)
    (answer : (protocol α σ).Answer work.query) :
    Follows (resume work answer stock) (Shelf.resume work answer stock.shelf) := by
  cases work with
  | making care requested => exact coherent.unchanged _
  | discarding item rest reply => exact coherent.unchanged _
  | vetting item =>
      cases answer with
      | false => exact coherent.unchanged _
      | true =>
          have follows := coherent.offer_follows item
          rw [resume, Shelf.resume]
          cases offered : stock.offer item with
          | mk admission stock' =>
              cases offered' : stock.shelf.offer item with
              | mk admission' shelf' =>
                  rw [offered, offered'] at follows
                  obtain ⟨outcome, state, coherent'⟩ := follows
                  cases outcome
                  cases state
                  cases admission with
                  | refused item' => exact coherent'.unchanged _
                  | admitted evicted => exact coherent'.unchanged _

end Stock

/-- Nothing that can be seen tells the stock from the shelf. -/
structure Stock.Resembles (stock : Stock α σ) (shelf : Shelf α) : Prop where
  items : stock.items = shelf.items
  usage : stock.store.usage = shelf.usage
  tally : stock.tally = shelf.tally

theorem Stock.Coherent.resembles {stock : Stock α σ} (coherent : Coherent stock) : Resembles stock stock.shelf where
  items := rfl
  usage := coherent.usage_eq
  tally := rfl

def shelving (settings : Settings) : (service (α := α) (σ := σ) settings).Version (Shelf α) where
  start := Shelf.start settings
  resume := Shelf.resume
  advances := Shelf.resume_advances

variable [Std.TransOrd σ] [Std.LawfulEqOrd σ]

theorem shelving_mirrors (settings : Settings) :
    (shelving settings).Mirrors (Stock.shelf (α := α) (σ := σ)) Coherent where
  start request _ coherent := (coherent.start_follows settings request).mirrored
  resume work answer _ coherent := (coherent.resume_follows work answer).mirrored

theorem Stock.Coherent.of_reached {settings : Settings} {stock : Stock α σ}
    (reached : (service settings).Reaches (Stock.ofLimit settings.limit) stock) : Coherent stock := by
  apply reached.preserves Coherent
  · exact of_limit_coherent settings.limit
  · intro request stock coherent
    exact (coherent.start_follows settings request).coherent
  · intro request work answer stock coherent
    exact (coherent.resume_follows work answer).coherent

/-- Whatever a client does, and even if it calls back, a pool and a plain list say the same at every step and end in
the same way. With a client that never calls back every script comes to its end, and the client, which may write
down all that it is asked, has written down the same. -/
theorem service_behaves_as_shelf (settings : Settings) (script : Script (protocol α σ) φ β) (memory : φ) :
    (∀ client steps,
      let pool : Moment (service settings) φ β := .opening script memory (Stock.ofLimit settings.limit)
      let plain : Moment (Shelf.service settings) φ β := .opening script memory (Shelf.ofLimit settings.limit)
      (pool.advance client steps).1 = (plain.advance client steps).1 ∧
      (pool.advance client steps).2.memory = (plain.advance client steps).2.memory ∧
      Resembles (pool.advance client steps).2.state (plain.advance client steps).2.state ∧
      Option.Rel (fun ending ending' => ending.result = ending'.result ∧ ending.memory = ending'.memory ∧
        Resembles ending.state ending'.state) (pool.run client steps) (plain.run client steps)) ∧
    ∀ answer : (query : (protocol α σ).Query) → φ → (protocol α σ).Answer query × φ,
      let ending := (service settings).attend (.aloof answer) script memory (Stock.ofLimit settings.limit)
      let ending' := (Shelf.service settings).attend (.aloof answer) script memory (Shelf.ofLimit settings.limit)
      ending.1 = ending'.1 ∧ ending.2.1 = ending'.2.1 ∧ Resembles ending.2.2 ending'.2.2 := by
  have mirrors : (shelving settings).Mirrors (Stock.shelf (α := α) (σ := σ)) Coherent := shelving_mirrors settings
  have coherent : Coherent (Stock.ofLimit settings.limit : Stock α σ) := of_limit_coherent settings.limit
  constructor
  · intro client steps pool plain
    have advanced : plain.advance client steps = _ := mirrors.advance client steps pool coherent
    have reached := mirrors.stays (Moment.leads_advance client steps pool) coherent
    have ran : plain.run client steps = _ := mirrors.run client steps pool coherent
    rw [advanced, ran]
    refine ⟨rfl, rfl, reached.resembles, ?_⟩
    cases ended : pool.run client steps with
    | none => exact .none
    | some ending =>
        have inOrder := mirrors.ending_in_order steps coherent ended
        exact .some ⟨rfl, rfl, inOrder.resembles⟩
  · intro answer
    obtain ⟨same, reached⟩ := mirrors.attend answer script memory (Stock.ofLimit settings.limit) coherent
    intro ending ending'
    have attended : ending' = _ := same
    rw [attended]
    exact ⟨rfl, rfl, reached.resembles⟩

/-- Of two blocks of ten the later one is taken, a request for fifteen takes the block of twenty, and once more than
half of the limit is in use a request for five is answered with a new block. The last block evicts the colder two. -/
theorem request_takes_the_least_longer_block :
    let settings : Settings :=
      { limit := 100, largestItem := some 60, matching := .atLeast, clearsAt := Pressure.background }
    let answer : (query : (protocol (Block .anyIfRoomy) UInt64).Query) → List UInt64 →
        (protocol (Block .anyIfRoomy) UInt64).Answer query × List UInt64 := fun
      | .make requested, deeds => (Block.fresh requested, deeds ++ [requested])
      | .approve _, deeds => (true, deeds)
      | .discard block, deeds => ((), deeds ++ [block.bytes])
    let script : Script (protocol (Block .anyIfRoomy) UInt64) (List UInt64) (List Int) :=
      .call (.put ⟨10, 10, 1, true⟩) fun _ =>
      .call (.put ⟨20, 20, 2, true⟩) fun _ =>
      .call (.put ⟨10, 10, 3, true⟩) fun _ =>
      .call (.lookup .dirty 10) fun (later : Block .anyIfRoomy) =>
      .call (.lookup .clean 15) fun (longer : Block .anyIfRoomy) =>
      .call (.put ⟨60, 60, 4, true⟩) fun _ =>
      .call (.lookup .clean 5) fun (new : Block .anyIfRoomy) =>
      .call (.put ⟨50, 50, 5, true⟩) fun _ =>
      .done [later.tag, longer.tag, new.tag]
    let ending := (service settings).attend (.aloof answer) script [] (Stock.ofLimit settings.limit)
    ending.1 = [3, 0, -1] ∧ ending.2.1 = [5, 10, 60] ∧ ending.2.2.items = [⟨50, 50, 5, true⟩] ∧
      ending.2.2.tally = { hits := 2, misses := 1, puts := 5, evictions := 2 } := by
  intro settings answer script ending
  obtain ⟨result, memory, items, _, tally⟩ := (service_behaves_as_shelf settings script []).2 answer
  refine ⟨result.trans ?_, memory.trans ?_, items.trans ?_, tally.trans ?_⟩
  · cbv
  · cbv
  · cbv
  · cbv

end Pool

end MemoryBudget
