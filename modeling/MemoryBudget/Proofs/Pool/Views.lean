import MemoryBudget.Proofs.Pool.Objects
import MemoryBudget.Proofs.Pool.Shelves

/-!
# Views of objects

A pool looks at the shape and the size of an object, and asks whether it may be used again. A view changes anything else.
Each operation does to the views of objects what it does to the objects, so it does not matter when the view is taken.
-/

set_option autoImplicit false

namespace MemoryBudget

namespace Pool

variable {α β σ : Type}

structure View [Recyclable α σ] [Recyclable β σ] (view : α → β) : Prop where
  shape : ∀ item, Recyclable.shape (view item) = Recyclable.shape item
  byteSize : ∀ item, Recyclable.byteSize (view item) = Recyclable.byteSize item
  reusable : ∀ item, Recyclable.reusable (view item) = Recyclable.reusable item
  serves : ∀ requested candidate roomy,
    Recyclable.serves β requested candidate roomy = Recyclable.serves α requested candidate roomy

def Shelf.view (view : α → β) (shelf : Shelf α) : Shelf β :=
  { base := shelf.base, limit := shelf.limit, items := shelf.items.map view, tally := shelf.tally }

@[simp] theorem Shelf.view_limit (view : α → β) (shelf : Shelf α) : (shelf.view view).limit = shelf.limit := rfl

@[simp] theorem Shelf.view_tally (view : α → β) (shelf : Shelf α) : (shelf.view view).tally = shelf.tally := rfl

def Admission.view (view : α → β) : Admission α → Admission β
  | .refused item => .refused (view item)
  | .admitted evicted => .admitted (evicted.map view)

namespace View

theorem clear (view : α → β) (shelf : Shelf α) :
    (shelf.view view).clear = (shelf.clear.1.map view, shelf.clear.2.view view) := by
  simp [Shelf.clear, Shelf.view]

variable [Recyclable α σ] [Recyclable β σ] {view : α → β} (isView : View view)

include isView

theorem total_size (items : List α) : Shelf.totalSize (items.map view) = Shelf.totalSize items := by
  induction items with
  | nil => rfl
  | cons item rest ih => simp [Shelf.totalSize, isView.byteSize, ih]

theorem longest_within (target : Nat) (items : List α) :
    Shelf.longestWithin target (items.map view) = (Shelf.longestWithin target items).map view := by
  induction items generalizing target with
  | nil => rfl
  | cons item rest ih =>
      simp only [List.map_cons, Shelf.longestWithin, isView.byteSize]
      split
      · simp [ih]
      · rfl

theorem trim_to (shelf : Shelf α) (target : Nat) :
    (shelf.view view).trimTo target = ((shelf.trimTo target).1.map view, (shelf.trimTo target).2.view view) := by
  simp [Shelf.trimTo, Shelf.view, isView.longest_within, List.map_drop]

theorem trim (shelf : Shelf α) (clearsAt pressure : Pressure) :
    (shelf.view view).trim clearsAt pressure =
      ((shelf.trim clearsAt pressure).1.map view, (shelf.trim clearsAt pressure).2.view view) := by
  unfold Shelf.trim
  split
  · exact clear view shelf
  · cases pressure.retention with
    | everything => rfl
    | half => exact isView.trim_to shelf _
    | nothing => exact clear view shelf

theorem rescale (shelf : Shelf α) (multiplier : Multiplier) :
    (shelf.view view).rescale multiplier =
      (shelf.rescale multiplier).map fun outcome => (outcome.1.map view, outcome.2.view view) := by
  cases valid : multiplier.validate with
  | error invalid =>
      rw [Shelf.rescale_of_invalid valid, Shelf.rescale_of_invalid valid]
      rfl
  | ok _ =>
      rw [Shelf.rescale_of_valid valid, Shelf.rescale_of_valid valid]
      exact congrArg Except.ok (isView.trim_to { shelf with limit := scaleSize shelf.base multiplier } _)

theorem usage (shelf : Shelf α) : (shelf.view view).usage = shelf.usage := by
  simp [Shelf.usage, Shelf.view, isView.total_size]

theorem offer (shelf : Shelf α) (item : α) :
    (shelf.view view).offer (view item) = ((shelf.offer item).1.view view, (shelf.offer item).2.view view) := by
  have trimmed := isView.trim_to shelf (shelf.limit.toNat - (Recyclable.byteSize item).toNat)
  rw [Shelf.offer, Shelf.offer, isView.byteSize, Shelf.view_limit]
  split
  · rfl
  · rw [trimmed]
    rfl

theorem admits (settings : Settings) (item : α) : settings.admits (view item) = settings.admits item := by
  rw [Settings.admits, Settings.admits, isView.reusable, isView.byteSize]

variable [Ord σ]

theorem serving (shelf : Shelf α) (matching : Matching) (requested : σ) :
    (shelf.view view).serving? matching requested = shelf.serving? matching requested := by
  cases matching with
  | exact => rfl
  | atLeast =>
      have roomy : (shelf.view view).roomy = shelf.roomy := by simp [Shelf.roomy, Shelf.view, isView.total_size]
      have shapes : (shelf.view view).items.map Recyclable.shape = shelf.items.map (Recyclable.shape (σ := σ)) := by
        simp [Shelf.view, Function.comp_def, isView.shape]
      simp only [Shelf.serving?, roomy, shapes, isView.serves]

variable [DecidableEq σ]

/-- What is found and erased among the views is the view of what is found and erased. -/
theorem take (shelf : Shelf α) (matching : Matching) (requested : σ) :
    (shelf.view view).take matching requested =
      ((shelf.take matching requested).1.map view, (shelf.take matching requested).2.view view) := by
  have served : (fun item => shelf.serving? matching requested == some (Recyclable.shape item)) ∘ view =
      fun item => shelf.serving? matching requested == some (Recyclable.shape item) := by
    funext item
    simp [isView.shape]
  have found : (shelf.view view).items.find? (fun item =>
      shelf.serving? matching requested == some (Recyclable.shape item)) =
        (shelf.items.find? fun item =>
          shelf.serving? matching requested == some (Recyclable.shape item)).map view := by
    rw [← served]
    exact List.find?_map
  have erased : (shelf.view view).items.eraseP (fun item =>
      shelf.serving? matching requested == some (Recyclable.shape item)) =
        (shelf.items.eraseP fun item =>
          shelf.serving? matching requested == some (Recyclable.shape item)).map view := by
    rw [← served]
    exact List.eraseP_map
  unfold Shelf.take
  simp only [isView.serving, found, erased]
  cases shelf.items.find? fun item => shelf.serving? matching requested == some (Recyclable.shape item) with
  | none => rfl
  | some item => rfl

end View

end Pool

/-! ## Wiping -/

theorem Bitmap.wipe_is_view : Pool.View (Recyclable.wipe : Bitmap → Bitmap) where
  shape _ := rfl
  byteSize _ := congrArg UInt64.ofNat Array.size_replicate
  reusable _ := rfl
  serves _ _ _ := rfl

theorem Buffer.wipe_extent (buffer : Buffer) : (Recyclable.wipe buffer : Buffer).extent = buffer.extent := by
  cases buffer <;> simp [Recyclable.wipe, fill, extent, element, length]

theorem Buffer.wipe_is_view : Pool.View (Recyclable.wipe : Buffer → Buffer) where
  shape := wipe_extent
  byteSize buffer := congrArg (fun extent : Extent => UInt64.ofNat (extent.length * extent.element.byteSize))
    buffer.wipe_extent
  reusable _ := rfl
  serves _ _ _ := rfl

end MemoryBudget
