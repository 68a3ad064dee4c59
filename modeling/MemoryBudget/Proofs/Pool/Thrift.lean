import MemoryBudget.Pool.Clients
import MemoryBudget.Proofs.Dialogue.Frugality
import MemoryBudget.Proofs.Pool.Refinement
import MemoryBudget.Proofs.Pool.Steps

/-!
# Thrifty clients of pools

A client that is handed an object back is thrifty if the objects that it puts then are smaller together than that one.
It does not matter whether the pool keeps them: an object that is refused is handed back at once.
-/

set_option autoImplicit false

namespace MemoryBudget

open Pool.Shelf (totalSize)
open Pool.Stock (Coherent Follows)

namespace Pool

variable {α σ φ β : Type} [Recyclable α σ]

theorem total_size_append (items others : List α) : totalSize (items ++ others) = totalSize items + totalSize others := by
  induction items with
  | nil => exact (Nat.zero_add _).symm
  | cons item rest ih =>
      rw [List.cons_append, totalSize, totalSize, ih]
      omega

theorem total_size_reverse (items : List α) : totalSize items.reverse = totalSize items := by
  induction items with
  | nil => rfl
  | cons item rest ih =>
      rw [List.reverse_cons, total_size_append, ih, totalSize, totalSize, totalSize]
      omega

/-- From inside a discard objects may be put and the counts may be read. -/
def tariff (α σ : Type) [Recyclable α σ] : Tariff (protocol α σ) where
  toll
    | .put item => .due (Recyclable.byteSize item).toNat
    | .usage | .tally => .free
    | .lookup _ _ | .trimTo _ | .clear | .trim _ | .rescale _ => .barred
  weight
    | .make _ | .approve _ => 0
    | .discard item => (Recyclable.byteSize item).toNat
  fee _ _ := .free

/-- What a call has in hand beside what it asks about. An object that is being vetted is not yet handed back. -/
def Work.held {request : Call α σ} : Work request → Nat
  | .making _ _ => 0
  | .vetting item => (Recyclable.byteSize item).toNat
  | .discarding _ rest _ => totalSize rest

def heft {request : Call α σ} : Progress (Work request) ((protocol α σ).Reply request) × Shelf α → Nat
  | (.replied _, shelf) => totalSize shelf.items
  | (.waiting work, shelf) => totalSize shelf.items + (tariff α σ).weight work.query + work.held

theorem heft_discard {request : Call α σ} (reply : (protocol α σ).Reply request) (items : List α) (shelf : Shelf α) :
    heft (discard reply items, shelf) = totalSize shelf.items + totalSize items := by
  cases items with
  | nil => rfl
  | cons item rest => exact Nat.add_assoc _ _ _

theorem heft_discard_one {request : Call α σ} (reply : (protocol α σ).Reply request) (item : α) (shelf : Shelf α) :
    heft (discard reply [item], shelf) = totalSize shelf.items + (Recyclable.byteSize item).toNat :=
  heft_discard reply [item] shelf

theorem Shelf.Starts.heft_le [Ord σ] [DecidableEq σ] {settings : Settings} {shelf : Shelf α} {request : Call α σ}
    {outcome : Progress (Work request) ((protocol α σ).Reply request) × Shelf α}
    (starts : Starts settings shelf request outcome) :
    heft outcome ≤ totalSize shelf.items + ((tariff α σ).toll request).amount := by
  cases starts with
  | @recycles shelf' fresher colder item care requested parted kept =>
      show totalSize shelf'.items ≤ totalSize shelf.items
      rw [parted, kept, total_size_append, total_size_append, totalSize]
      omega
  | @misses shelf' care requested same =>
      show totalSize shelf'.items ≤ totalSize shelf.items
      rw [same]
  | vets item admits =>
      show totalSize shelf.items + 0 + (Recyclable.byteSize item).toNat ≤ _
      exact Nat.le_refl _
  | declines item => exact Nat.le_of_eq (heft_discard_one _ item shelf)
  | @sheds shelf' evicted _ quiet reply sheds =>
      refine Nat.le_trans (Nat.le_of_eq (heft_discard reply evicted shelf')) ?_
      rw [sheds.parted, total_size_append, total_size_reverse]
      exact Nat.le_add_right _ _

theorem Shelf.Resumes.heft_le {shelf : Shelf α} {request : Call α σ} {work : Work request}
    {answer : (protocol α σ).Answer work.query}
    {outcome : Progress (Work request) ((protocol α σ).Reply request) × Shelf α}
    (resumes : Resumes shelf work answer outcome) : heft outcome ≤ totalSize shelf.items + work.held := by
  cases resumes with
  | supplies care requested item => exact Nat.le_refl _
  | refuses item approved => exact Nat.le_of_eq (heft_discard_one _ item shelf)
  | @admits shelf' evicted kept item parted fresh =>
      refine Nat.le_trans (Nat.le_of_eq (heft_discard _ evicted shelf')) ?_
      rw [fresh, parted, total_size_append, total_size_reverse, totalSize]
      show _ ≤ totalSize kept + totalSize evicted + (Recyclable.byteSize item).toNat
      omega
  | discards item rest reply heard => exact Nat.le_of_eq (heft_discard reply rest shelf)

section Scale

variable [DecidableEq σ] [Hashable σ] [Ord σ]

/-- What there is in a pool is what there is on its shelf. -/
theorem service_heft {settings : Settings} {request : Call α σ}
    {actual : Progress (Work request) ((protocol α σ).Reply request) × Stock α σ}
    {meant : Progress (Work request) ((protocol α σ).Reply request) × Shelf α} (follows : Follows actual meant) :
    (service settings).heft (tariff α σ) (fun stock : Stock α σ => totalSize stock.items) Work.held actual =
      heft meant := by
  obtain ⟨same, _⟩ := follows.mirrored
  obtain ⟨progress, stock⟩ := actual
  rw [same]
  cases progress <;> rfl

variable [Std.TransOrd σ] [Std.LawfulEqOrd σ]

def scale (settings : Settings) : Scale (tariff α σ) (service settings) where
  InOrder := Coherent
  load stock := totalSize stock.items
  held := Work.held
  replies request stock free := by
    cases request with
    | usage | tally => exact ⟨_, rfl⟩
    | lookup _ _ | put _ | trimTo _ | clear | trim _ | rescale _ => cases free
  started request stock coherent := by
    have follows := coherent.start_follows settings request
    exact ⟨follows.coherent, Nat.le_trans (Nat.le_of_eq (service_heft follows))
      (Shelf.start_meets settings stock.shelf request).heft_le⟩
  resumed work answer stock coherent := by
    have follows := coherent.resume_follows work answer
    exact ⟨follows.coherent, Nat.le_trans (Nat.le_of_eq (service_heft follows))
      (Shelf.resume_meets stock.shelf work answer).heft_le⟩

/-! ## Workshops that put something smaller back -/

omit [Std.TransOrd σ] [Std.LawfulEqOrd σ] in
def estimate (settings : Settings) : Estimate (tariff α σ) (service settings) where
  expected _ _ := True
  quote
    | .put item => (Recyclable.byteSize item).toNat
    | _ => 0
  owed _ := 0
  covered request := by cases request <;> exact Nat.le_refl _
  started {request} _ _ _ _ := by cases request <;> exact Nat.le_refl _
  payable _ _ _ := ⟨nofun, Nat.le_refl _⟩
  resumed _ _ _ _ _ _ _ := Nat.le_refl _

/-- Putting something smaller back is thrifty. -/
theorem workshop_thrifty {practice : Practice α σ}
    (shrinks : ∀ item remade, practice.remake item = some remade →
      Recyclable.byteSize remade < Recyclable.byteSize item) (settings : Settings)
    (script : Script (protocol α σ) (Workshop α σ) β) (memory : Workshop α σ) (stock : Stock α σ)
    (said : List (Utterance (protocol α σ))) (moment : Moment (service settings) (Workshop α σ) β)
    (leads : (Moment.opening script memory stock).Leads practice.client said moment) : (tariff α σ).Thrifty said := by
  apply (estimate settings).thrifty (scale settings) ?_ said moment leads
  intro said moment leads expected pending member
  obtain ⟨request, work⟩ := pending
  cases work with
  | making care requested => exact fun _ _ _ => trivial
  | vetting item => exact fun _ => trivial
  | discarding item rest reply =>
      show (practice.discard item).Frugal (estimate settings) (fun _ => True) (Recyclable.byteSize item).toNat
      rw [Practice.discard]
      cases practice.inReach with
      | false =>
          rintro memory ⟨deeds, _ | second⟩
          · trivial
          · exact fun _ => trivial
      | true =>
          rintro usage memory ⟨deeds, _ | second⟩
          · cases remade : practice.remake item with
            | none => trivial
            | some smaller => exact ⟨UInt64.lt_iff_toNat_lt.mp (shrinks item smaller remade), fun _ => trivial⟩
          · exact fun _ => trivial

end Scale

end Pool

end MemoryBudget
