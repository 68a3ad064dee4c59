import MemoryBudget.Proofs.Pool.Serving

/-!
# Pools with a supplier

A supplier only allocates what a pool lacks, and approves or frees what it is shown; so each call comes to its reply at
once. What a lookup hands out is an object that was resident or a new one, and what becomes resident was put.
-/

set_option autoImplicit false

namespace MemoryBudget

namespace Pool

open Stock

variable {α σ φ : Type} [DecidableEq σ] [Ord σ] [Recyclable α σ]

namespace Shelf

inductive Supplied (settings : Settings) (supplier : Supplier α σ) (shelf : Shelf α) : (request : Call α σ) →
    (protocol α σ).Reply request × Shelf α → Prop where
  | recycles {shelf' : Shelf α} {item : α} (care : Care) (requested : σ) (resident : item ∈ shelf.items)
      (kept : shelf'.items ⊆ shelf.items)
      (serving : shelf.serving? (care.matching settings) requested = some (Recyclable.shape item)) :
      Supplied settings supplier shelf (.lookup care requested) ((care.hand item : α), shelf')
  /-- The supplier allocates a new object. -/
  | makes {shelf' : Shelf α} (care : Care) (requested : σ) (kept : shelf'.items ⊆ shelf.items) :
      Supplied settings supplier shelf (.lookup care requested) ((supplier.allocate requested : α), shelf')
  /-- An object that is put becomes resident if it may be kept; otherwise the supplier frees it. -/
  | puts {shelf' : Shelf α} (item : α) (admits : settings.admits item = true) (kept : shelf'.items ⊆ item :: shelf.items) :
      Supplied settings supplier shelf (.put item) ((), shelf')
  | declines (item : α) : Supplied settings supplier shelf (.put item) ((), shelf)
  /-- Some objects leave, if any. -/
  | sheds {shelf' : Shelf α} (request : Call α σ) (quiet : request.Quiet) (reply : (protocol α σ).Reply request)
      (kept : shelf'.items ⊆ shelf.items) : Supplied settings supplier shelf request (reply, shelf')

omit [DecidableEq σ] in
theorem serves_of_serving {shelf : Shelf α} {requested shape : σ}
    (serving : shelf.serving? .atLeast requested = some shape) :
    Recyclable.serves α requested shape shelf.roomy = true := by
  simp only [serving?, Option.bind_eq_bind, Option.bind_eq_some_iff] at serving
  obtain ⟨candidate, _, serves⟩ := serving
  split at serves
  · cases serves
    assumption
  · cases serves

variable (settings : Settings) (supplier : Supplier α σ) (shelf : Shelf α) (memory : φ)

theorem supplied_lookup (care : Care) (requested : σ) :
    Supplied settings supplier shelf (.lookup care requested)
      ((shelf.serve settings supplier (.lookup care requested)).1,
        (shelf.serve settings supplier (.lookup care requested)).2.1) := by
  rcases shelf.take_cases (care.matching settings) requested with
    ⟨fresher, item, colder, parted, _, serving, taken⟩ | ⟨_, missed⟩
  · simp only [serve, taken]
    apply Supplied.recycles care requested _ _ serving
    · simp [parted]
    · simp [parted]
  · simp only [serve, missed]
    exact .makes care requested (List.Subset.refl _)

theorem supplied_put (item : α) :
    Supplied settings supplier shelf (.put item)
      ((shelf.serve settings supplier (.put item)).1, (shelf.serve settings supplier (.put item)).2.1) := by
  by_cases admits : settings.admits item = true
  · cases approved : supplier.approves item with
    | false =>
        simp only [serve, admits, approved]
        exact .declines item
    | true =>
        simp only [serve, admits, approved, if_true]
        rcases shelf.offer_cases item with refused | ⟨evicted, kept, shelf', admitted, parted, fresh, _⟩
        · rw [refused]
          exact .declines item
        · rw [admitted]
          apply Supplied.puts item admits
          simp [fresh, parted]
  · simp only [serve, admits]
    exact .declines item

omit [DecidableEq σ] in
theorem sheds_supplied (request : Call α σ) (quiet : request.Quiet) (reply : (protocol α σ).Reply request)
    {outcome : List α × Shelf α} (sheds : Sheds shelf outcome) :
    Supplied settings supplier shelf request (reply, outcome.2) := by
  apply Supplied.sheds request quiet reply
  rw [sheds.parted]
  exact List.subset_append_left _ _

theorem serve_supplied (request : Call α σ) :
    Supplied settings supplier shelf request
      ((shelf.serve settings supplier request).1, (shelf.serve settings supplier request).2.1) := by
  cases request with
  | lookup care requested => exact supplied_lookup settings supplier shelf care requested
  | put item => exact supplied_put settings supplier shelf item
  | trimTo target => exact sheds_supplied settings supplier shelf (.trimTo target) trivial () (shelf.trim_to_sheds target.toNat)
  | clear => exact sheds_supplied settings supplier shelf .clear trivial () shelf.clear_sheds
  | trim pressure =>
      exact sheds_supplied settings supplier shelf (.trim pressure) trivial () (shelf.trim_sheds settings.clearsAt pressure)
  | rescale multiplier =>
      rcases shelf.rescale_sheds multiplier with ⟨invalid, refused⟩ | ⟨outcome, rescaled, sheds⟩
      · simp only [serve, refused]
        exact sheds_supplied settings supplier shelf (.rescale multiplier) trivial (.error invalid) shelf.sheds_nothing
      · simp only [serve, rescaled]
        exact sheds_supplied settings supplier shelf (.rescale multiplier) trivial (.ok ()) sheds
  | usage => exact sheds_supplied settings supplier shelf .usage trivial shelf.usage shelf.sheds_nothing
  | tally => exact sheds_supplied settings supplier shelf .tally trivial shelf.tally shelf.sheds_nothing

/-- A call of a pool with a supplier comes to what it is said to come to. -/
theorem perform_supplier (request : Call α σ) :
    (Shelf.service settings).perform supplier.attendant request shelf memory =
      ((shelf.serve settings supplier request).1, (shelf.serve settings supplier request).2.1, memory) := by
  apply (perform_serves supplier.answer settings shelf memory request).trans
  rw [remembered_supplier, supplier_at_answer]

/-- Each call of a pool with a supplier ends in one of these ways. -/
theorem perform_supplied (request : Call α σ) :
    Supplied settings supplier shelf request
        (((Shelf.service settings).perform supplier.attendant request shelf memory).1,
          ((Shelf.service settings).perform supplier.attendant request shelf memory).2.1) ∧
      ((Shelf.service settings).perform supplier.attendant request shelf memory).2.2 = memory := by
  rw [perform_supplier]
  exact ⟨serve_supplied settings supplier shelf request, rfl⟩

/-- A multiplier is valid or not, whatever the pool has. -/
theorem perform_rescale (multiplier : Multiplier) :
    ((Shelf.service settings).perform supplier.attendant (.rescale multiplier) shelf memory).1 =
      multiplier.validate := by
  rw [perform_supplier]
  cases valid : multiplier.validate with
  | error invalid =>
      simp only [serve, shelf.rescale_of_invalid valid]
      rfl
  | ok _ =>
      simp only [serve, shelf.rescale_of_valid valid]
      rfl

end Shelf

variable [Hashable σ] [Std.TransOrd σ] [Std.LawfulEqOrd σ]

/-- A call of a pool with a supplier does to the shelf what it does to the stock. -/
theorem Stock.Coherent.perform_follows {stock : Stock α σ} (coherent : Coherent stock) (settings : Settings)
    (supplier : Supplier α σ) (request : Call α σ) (memory : φ) :
    (Shelf.service settings).perform supplier.attendant request stock.shelf memory =
      (((service settings).perform supplier.attendant request stock memory).1,
        ((service settings).perform supplier.attendant request stock memory).2.1.shelf,
        ((service settings).perform supplier.attendant request stock memory).2.2) ∧
      Coherent ((service settings).perform supplier.attendant request stock memory).2.1 :=
  (shelving_mirrors settings).perform _ request stock memory coherent

end Pool

end MemoryBudget
