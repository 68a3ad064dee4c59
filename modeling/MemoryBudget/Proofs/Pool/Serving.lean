import MemoryBudget.Pool.Clients
import MemoryBudget.Proofs.Dialogue.Turns
import MemoryBudget.Proofs.Pool.Refinement
import MemoryBudget.Proofs.Pool.Steps

/-!
# Attended calls of pools, all at once

A call of a pool asks for at most one new object or one approval, and then has objects discarded. So what an attended
call comes to can be said without a dialogue: its reply, the shelf that it leaves, and what it asks on the way.
-/

set_option autoImplicit false

namespace MemoryBudget

namespace Pool

variable {α σ φ : Type}

def supplierAt (answer : (query : (protocol α σ).Query) → φ → (protocol α σ).Answer query × φ) (memory : φ) :
    Supplier α σ where
  allocate requested := (answer (.make requested) memory).1
  approves item := (answer (.approve item) memory).1

def Supplier.answer (supplier : Supplier α σ) :
    (query : (protocol α σ).Query) → φ → (protocol α σ).Answer query × φ
  | .make requested, memory => (supplier.allocate requested, memory)
  | .approve item, memory => (supplier.approves item, memory)
  | .discard _, memory => ((), memory)

theorem supplier_at_answer (supplier : Supplier α σ) (memory : φ) : supplierAt supplier.answer memory = supplier := rfl

theorem remembered_supplier (supplier : Supplier α σ) (memory : φ) (asked : List (Query α σ)) :
    remembered supplier.answer memory asked = memory := by
  induction asked with
  | nil => rfl
  | cons query rest ih => cases query <;> exact ih

def Query.made? : Query α σ → Option σ
  | .make requested => some requested
  | _ => none

variable [DecidableEq σ] [Ord σ] [Recyclable α σ]

namespace Shelf

/-- What an attended call comes to: its reply, the shelf that it leaves, and what it asks on the way. -/
def serve (shelf : Shelf α) (settings : Settings) (supplier : Supplier α σ) :
    (request : Call α σ) → (protocol α σ).Reply request × Shelf α × List (Query α σ)
  | .lookup care requested =>
      match shelf.take (care.matching settings) requested with
      | (some item, shelf) => ((care.hand item : α), shelf, [])
      | (none, shelf) => ((supplier.allocate requested : α), shelf, [.make requested])
  | .put item =>
      if settings.admits item then
        if supplier.approves item then
          match shelf.offer item with
          | (.refused refused, shelf) => ((), shelf, [.approve item, .discard refused])
          | (.admitted evicted, shelf) => ((), shelf, .approve item :: evicted.map .discard)
        else ((), shelf, [.approve item, .discard item])
      else ((), shelf, [.discard item])
  | .trimTo target =>
      let (evicted, shelf) := shelf.trimTo target.toNat
      ((), shelf, evicted.map .discard)
  | .clear =>
      let (evicted, shelf) := shelf.clear
      ((), shelf, evicted.map .discard)
  | .trim pressure =>
      let (evicted, shelf) := shelf.trim settings.clearsAt pressure
      ((), shelf, evicted.map .discard)
  | .rescale multiplier =>
      match shelf.rescale multiplier with
      | .ok (evicted, shelf) => (.ok (), shelf, evicted.map .discard)
      | .error invalid => (.error invalid, shelf, [])
  | .usage => (shelf.usage, shelf, [])
  | .tally => (shelf.tally, shelf, [])

variable (answer : (query : (protocol α σ).Query) → φ → (protocol α σ).Answer query × φ) (settings : Settings)
  (shelf : Shelf α) (memory : φ)

theorem finish_discarding {request : Call α σ} (item : α) (rest : List α) (reply : (protocol α σ).Reply request) :
    (Shelf.service settings).finish (.aloof answer) (.discarding item rest reply : Work request) shelf memory =
      (reply, shelf, remembered answer memory ((item :: rest).map .discard)) := by
  induction rest generalizing item memory with
  | nil => exact Service.finish_of_replied _ _ _ _ _ rfl
  | cons other rest ih =>
      apply (Service.finish_of_waiting _ _ _ _ _ _).trans (ih _ other)
      rfl

theorem perform_of_discards {request : Call α σ} {reply : (protocol α σ).Reply request} {items : List α}
    {shelf' : Shelf α} (starts : start settings request shelf = (discard reply items, shelf')) :
    (Shelf.service settings).perform (.aloof answer) request shelf memory =
      (reply, shelf', remembered answer memory (items.map .discard)) := by
  cases items with
  | nil => exact Service.perform_of_replied _ _ _ _ starts
  | cons item rest =>
      apply (Service.perform_of_waiting _ _ _ _ _ starts).trans
      exact finish_discarding answer settings shelf' memory item rest reply

theorem finish_of_discards {request : Call α σ} {work : Work request} {reply : (protocol α σ).Reply request}
    {items : List α} {shelf' : Shelf α}
    (resumes : resume work (answer work.query memory).1 shelf = (discard reply items, shelf')) :
    (Shelf.service settings).finish (.aloof answer) work shelf memory =
      (reply, shelf', remembered answer memory (work.query :: items.map .discard)) := by
  cases items with
  | nil => exact Service.finish_of_replied _ _ _ _ _ resumes
  | cons item rest =>
      apply (Service.finish_of_waiting _ _ _ _ _ resumes).trans
      exact finish_discarding answer settings shelf' (answer work.query memory).2 item rest reply

theorem perform_lookup (care : Care) (requested : σ) :
    (Shelf.service settings).perform (.aloof answer) (.lookup care requested) shelf memory =
      ((shelf.serve settings (supplierAt answer memory) (.lookup care requested)).1,
        (shelf.serve settings (supplierAt answer memory) (.lookup care requested)).2.1,
        remembered answer memory (shelf.serve settings (supplierAt answer memory) (.lookup care requested)).2.2) := by
  have started := start_lookup settings shelf care requested
  cases taken : shelf.take (care.matching settings) requested with
  | mk found shelf' =>
      rw [taken] at started
      simp only [serve, taken]
      cases found with
      | none => exact (Service.perform_of_waiting _ _ _ _ _ started).trans (Service.finish_of_replied _ _ _ _ _ rfl)
      | some item => exact Service.perform_of_replied _ _ _ _ started

theorem perform_put (item : α) :
    (Shelf.service settings).perform (.aloof answer) (.put item) shelf memory =
      ((shelf.serve settings (supplierAt answer memory) (.put item)).1,
        (shelf.serve settings (supplierAt answer memory) (.put item)).2.1,
        remembered answer memory (shelf.serve settings (supplierAt answer memory) (.put item)).2.2) := by
  by_cases admits : settings.admits item = true
  · have started : start settings (.put item) shelf = (.waiting (.vetting item), shelf) := by
      rw [start, if_pos admits]
    have finishes : ∀ items shelf', resume (.vetting item) (answer (.approve item) memory).1 shelf =
        (@discard α σ (.put item) () items, shelf') →
        (Shelf.service settings).perform (.aloof answer) (.put item) shelf memory =
          ((), shelf', remembered answer memory (.approve item :: items.map .discard)) := by
      intro items shelf' resumes
      apply (Service.perform_of_waiting _ _ _ _ _ started).trans
      exact finish_of_discards answer settings shelf memory resumes
    cases approved : (supplierAt answer memory).approves item with
    | false =>
        rw [show (answer (.approve item) memory).1 = false from approved] at finishes
        rw [finishes [item] shelf rfl]
        simp only [serve, admits, approved]
        rfl
    | true =>
        rw [show (answer (.approve item) memory).1 = true from approved] at finishes
        simp only [serve, admits, approved, if_true]
        cases offered : shelf.offer item with
        | mk admission shelf' =>
            cases admission with
            | refused refused => exact finishes [refused] shelf' (by rw [resume, offered])
            | admitted evicted => exact finishes evicted shelf' (by rw [resume, offered])
  · have started : start settings (.put item) shelf = (@discard α σ (.put item) () [item], shelf) := by
      rw [start, if_neg admits]
    rw [perform_of_discards answer settings shelf memory started]
    simp only [serve, admits]
    rfl

theorem perform_serves (request : Call α σ) :
    (Shelf.service settings).perform (.aloof answer) request shelf memory =
      ((shelf.serve settings (supplierAt answer memory) request).1,
        (shelf.serve settings (supplierAt answer memory) request).2.1,
        remembered answer memory (shelf.serve settings (supplierAt answer memory) request).2.2) := by
  cases request with
  | lookup care requested => exact perform_lookup answer settings shelf memory care requested
  | put item => exact perform_put answer settings shelf memory item
  | trimTo target => exact perform_of_discards answer settings shelf memory rfl
  | clear => exact perform_of_discards answer settings shelf memory rfl
  | trim pressure => exact perform_of_discards answer settings shelf memory rfl
  | rescale multiplier =>
      cases rescaled : shelf.rescale multiplier with
      | error invalid =>
          have started : start settings (.rescale multiplier) shelf = (.replied (.error invalid), shelf) := by
            rw [start, rescaled]
          simp only [serve, rescaled]
          exact Service.perform_of_replied _ _ _ _ started
      | ok outcome =>
          have started : start settings (.rescale multiplier) shelf =
              (@discard α σ (.rescale multiplier) (.ok ()) outcome.1, outcome.2) := by
            rw [start, rescaled]
          simp only [serve, rescaled]
          exact perform_of_discards answer settings shelf memory started
  | usage => exact Service.perform_of_replied _ _ _ _ rfl
  | tally => exact Service.perform_of_replied _ _ _ _ rfl

end Shelf

variable [Hashable σ] [Std.TransOrd σ] [Std.LawfulEqOrd σ]

/-- The same for a stock, by its shelf. -/
theorem Stock.Coherent.perform_serves {stock : Stock α σ} (coherent : Coherent stock) (settings : Settings)
    (answer : (query : (protocol α σ).Query) → φ → (protocol α σ).Answer query × φ) (request : Call α σ) (memory : φ) :
    let performed := (service settings).perform (.noting answer) request stock (memory, [])
    let served := stock.shelf.serve settings (supplierAt answer memory) request
    performed.1 = served.1 ∧ performed.2.1.shelf = served.2.1 ∧ performed.2.2.2 = served.2.2 ∧
      Coherent performed.2.1 := by
  intro performed served
  let note := fun query (memory : φ × List (protocol α σ).Query) =>
    ((answer query memory.1).1, (answer query memory.1).2, memory.2 ++ [query])
  obtain ⟨mirrored, coherent'⟩ := (shelving_mirrors settings).perform note request stock (memory, []) coherent
  have served' := Shelf.perform_serves note settings stock.shelf (memory, []) request
  have same := mirrored.symm.trans served'
  have noted : performed.2.2.2 = _ := congrArg (·.2.2.2) same
  have asked := congrArg Prod.snd (remembered_noting answer memory [] served.2.2)
  exact ⟨congrArg (·.1) same, congrArg (·.2.1) same, noted.trans asked, coherent'⟩

def Shelf.turns (settings : Settings) (supplier : Supplier α σ) :
    List (Call α σ) → Shelf α → List (Turn (protocol α σ) (Shelf α))
  | [], _ => []
  | request :: rest, shelf =>
      let served := shelf.serve settings supplier request
      { request := request, reply := served.1, asked := served.2.2, state := served.2.1 } ::
        turns settings supplier rest served.2.1

/-- What is seen of the turns of a stock, is seen of those of its shelf. -/
theorem Stock.Coherent.turns_seen {β : Type} {see : Turn (protocol α σ) (Stock α σ) → β}
    {seeShelf : Turn (protocol α σ) (Shelf α) → β}
    (agree : ∀ request reply asked stock, Coherent stock →
      see { request := request, reply := reply, asked := asked, state := stock } =
        seeShelf { request := request, reply := reply, asked := asked, state := stock.shelf })
    (settings : Settings) (supplier : Supplier α σ) (calls : List (Call α σ)) {stock : Stock α σ}
    (coherent : Coherent stock) :
    ((service settings).turns supplier.answer calls () stock).map see =
      (Shelf.turns settings supplier calls stock.shelf).map seeShelf := by
  induction calls generalizing stock with
  | nil => rfl
  | cons request rest ih =>
      obtain ⟨reply, left, asked, later⟩ := coherent.perform_serves settings supplier.answer request ()
      rw [supplier_at_answer] at reply left asked
      apply congrArg₂ List.cons
      · apply (agree request _ _ _ later).trans
        rw [reply, asked, left]
      · rw [← left]
        exact ih later

end Pool

end MemoryBudget
