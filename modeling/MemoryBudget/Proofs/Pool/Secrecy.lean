import MemoryBudget.Proofs.Pool.Objects
import MemoryBudget.Proofs.Pool.Serving
import MemoryBudget.Proofs.Pool.Views

/-!
# Old contents stay secret

What a pool does depends on the shapes and the sizes of the objects that were put, never on what is in them. The argument
runs both of two dialogues against a third one, in which every object is wiped before it is put: wiping is a view, so all
three do the same, and what is handed out clean has been wiped in any of them.
-/

set_option autoImplicit false

namespace MemoryBudget

namespace Pool

open Stock

variable {α σ : Type}

/-- What a call shows of a pool. Of an object that is handed out as it is, or discarded, only the shape is in here. -/
structure Disclosure (α σ : Type) where
  usage : Usage
  tally : Tally
  /-- The shape for which a new object was made. A lookup that hits makes none. -/
  made : List σ
  discarded : List σ
  /-- What a clean or an exact lookup has handed out, with all its content. -/
  whole : Option α
  /-- The shape of what a dirty lookup has handed out. -/
  outline : Option σ
  deriving DecidableEq

def whole : (request : Call α σ) → (protocol α σ).Reply request → Option α
  | .lookup .clean _, item => some item
  | .lookup .exact _, item => some item
  | _, _ => none

variable [Recyclable α σ]

def outline : (request : Call α σ) → (protocol α σ).Reply request → Option σ
  | .lookup .dirty _, item => some (Recyclable.shape (α := α) item)
  | _, _ => none

def Query.discarded? : Query α σ → Option σ
  | .discard item => some (Recyclable.shape item)
  | _ => none

def disclose (request : Call α σ) (reply : (protocol α σ).Reply request) (asked : List (Query α σ)) (usage : Usage)
    (tally : Tally) : Disclosure α σ where
  usage := usage
  tally := tally
  made := asked.filterMap Query.made?
  discarded := asked.filterMap Query.discarded?
  whole := whole request reply
  outline := outline request reply

/-! ## Wiping what is put -/

def Call.wiped : Call α σ → Call α σ
  | .put item => .put (Recyclable.wipe item)
  | request => request

def Query.wiped : Query α σ → Query α σ
  | .make requested => .make requested
  | .approve item => .approve (Recyclable.wipe item)
  | .discard item => .discard (Recyclable.wipe item)

/-- Two calls are the same, but for what is in the objects that they put. -/
inductive Call.Akin (alike : α → α → Prop) : Call α σ → Call α σ → Prop where
  | put {one other : α} (same : alike one other) : Akin alike (.put one) (.put other)
  | same (request : Call α σ) : Akin alike request request

theorem Call.Akin.wiped {alike : α → α → Prop}
    (wipes : ∀ one other : α, alike one other → Recyclable.wipe one = Recyclable.wipe other)
    {calls calls' : List (Call α σ)} (akin : List.Forall₂ (Call.Akin alike) calls calls') :
    calls.map Call.wiped = calls'.map Call.wiped := by
  induction akin with
  | nil => rfl
  | cons first rest ih =>
      rw [List.map_cons, List.map_cons, ih]
      cases first with
      | put same => rw [Call.wiped, Call.wiped, wipes _ _ same]
      | same => rfl

/-- Wiping an object leaves what a pool and its supplier look at, and is done once and for all. -/
structure Supplier.Blind (supplier : Supplier α σ) : Prop where
  isView : View (Recyclable.wipe : α → α)
  wipes : ∀ item : α, Recyclable.wipe (Recyclable.wipe item) = Recyclable.wipe item
  approves : ∀ item, supplier.approves (Recyclable.wipe item) = supplier.approves item

theorem made_wiped (asked : List (Query α σ)) :
    (asked.map Query.wiped).filterMap Query.made? = asked.filterMap Query.made? := by
  rw [List.filterMap_map]
  apply congrArg (List.filterMap · asked)
  funext query
  cases query <;> rfl

theorem discarded_wiped (isView : View (Recyclable.wipe : α → α)) (asked : List (Query α σ)) :
    (asked.map Query.wiped).filterMap Query.discarded? = asked.filterMap Query.discarded? := by
  rw [List.filterMap_map]
  apply congrArg (List.filterMap · asked)
  funext query
  cases query with
  | discard item => simp [Query.wiped, Query.discarded?, isView.shape]
  | _ => rfl

theorem discards_wiped (items : List α) :
    (items.map (Query.discard (σ := σ))).map Query.wiped = (items.map Recyclable.wipe).map .discard := by
  simp [Query.wiped]

variable [DecidableEq σ] [Ord σ]

/-- A call with wiped objects on a wiped shelf leaves and asks what the call itself leaves and asks, wiped, and hands out
what looks the same. -/
structure Conceals (settings : Settings) (supplier : Supplier α σ) (shelf : Shelf α) (request : Call α σ) : Prop where
  left : ((shelf.view Recyclable.wipe).serve settings supplier request.wiped).2.1 =
    (shelf.serve settings supplier request).2.1.view Recyclable.wipe
  asked : ((shelf.view Recyclable.wipe).serve settings supplier request.wiped).2.2 =
    (shelf.serve settings supplier request).2.2.map Query.wiped
  whole : whole request.wiped ((shelf.view Recyclable.wipe).serve settings supplier request.wiped).1 =
    whole request (shelf.serve settings supplier request).1
  outline : outline request.wiped ((shelf.view Recyclable.wipe).serve settings supplier request.wiped).1 =
    outline request (shelf.serve settings supplier request).1

namespace Supplier.Blind

variable {supplier : Supplier α σ} (blind : supplier.Blind) (settings : Settings) (shelf : Shelf α)

include blind

theorem conceals_lookup (care : Care) (requested : σ) :
    Conceals settings supplier shelf (.lookup care requested) := by
  have taken := blind.isView.take shelf (care.matching settings) requested
  constructor <;> simp only [Call.wiped, Shelf.serve, taken] <;>
    rcases shelf.take (care.matching settings) requested with ⟨none | item, shelf'⟩
  · rfl
  · rfl
  · rfl
  · rfl
  · rfl
  · cases care <;> simp [Pool.whole, Care.hand, blind.wipes]
  · rfl
  · cases care <;> simp [Pool.outline, Care.hand, blind.isView.shape]

theorem conceals_put (item : α) : Conceals settings supplier shelf (.put item) := by
  have admits := blind.isView.admits settings item
  have approves := blind.approves item
  have offered := blind.isView.offer shelf item
  have served : (shelf.view Recyclable.wipe).serve settings supplier (.put (Recyclable.wipe item)) =
      ((), (shelf.serve settings supplier (.put item)).2.1.view Recyclable.wipe,
        (shelf.serve settings supplier (.put item)).2.2.map Query.wiped) := by
    simp only [Shelf.serve, admits, approves, offered]
    split
    · split
      · rcases shelf.offer item with ⟨refused | evicted, shelf'⟩
        · rfl
        · rw [List.map_cons, discards_wiped]
          rfl
      · rfl
    · rfl
  exact ⟨congrArg (·.2.1) served, congrArg (·.2.2) served, rfl, rfl⟩

omit blind in
/-- Only a lookup hands anything out. -/
theorem conceals_of_served (request : Call α σ) (quiet : request.Quiet)
    (left : ((shelf.view Recyclable.wipe).serve settings supplier request.wiped).2.1 =
      (shelf.serve settings supplier request).2.1.view Recyclable.wipe)
    (asked : ((shelf.view Recyclable.wipe).serve settings supplier request.wiped).2.2 =
      (shelf.serve settings supplier request).2.2.map Query.wiped) : Conceals settings supplier shelf request := by
  constructor
  · exact left
  · exact asked
  · cases request with
    | lookup care requested => exact quiet.elim
    | _ => rfl
  · cases request with
    | lookup care requested => exact quiet.elim
    | _ => rfl

theorem conceals_rescale (multiplier : Multiplier) :
    Conceals settings supplier shelf (.rescale multiplier) := by
  have rescaled := blind.isView.rescale shelf multiplier
  apply conceals_of_served settings shelf (.rescale multiplier) trivial <;>
    simp only [Call.wiped, Shelf.serve, rescaled] <;> rcases shelf.rescale multiplier with invalid | outcome
  · rfl
  · rfl
  · rfl
  · exact (discards_wiped outcome.1).symm

theorem conceals (request : Call α σ) : Conceals settings supplier shelf request := by
  cases request with
  | lookup care requested => exact blind.conceals_lookup settings shelf care requested
  | put item => exact blind.conceals_put settings shelf item
  | trimTo target =>
      apply conceals_of_served settings shelf (.trimTo target) trivial <;>
        simp only [Call.wiped, Shelf.serve, blind.isView.trim_to, discards_wiped]
  | clear =>
      apply conceals_of_served settings shelf .clear trivial <;>
        simp only [Call.wiped, Shelf.serve, View.clear, discards_wiped]
  | trim pressure =>
      apply conceals_of_served settings shelf (.trim pressure) trivial <;>
        simp only [Call.wiped, Shelf.serve, blind.isView.trim, discards_wiped]
  | rescale multiplier => exact blind.conceals_rescale settings shelf multiplier
  | usage => exact conceals_of_served settings shelf .usage trivial rfl rfl
  | tally => exact conceals_of_served settings shelf .tally trivial rfl rfl

end Supplier.Blind

/-! ## Two runs -/

def Shelf.disclosed (turn : Turn (protocol α σ) (Shelf α)) : Disclosure α σ :=
  disclose turn.request turn.reply turn.asked turn.state.usage turn.state.tally

theorem Supplier.Blind.shelf_disclosed_wiped {supplier : Supplier α σ} (blind : supplier.Blind)
    (settings : Settings) (calls : List (Call α σ)) (shelf : Shelf α) :
    (Shelf.turns settings supplier (calls.map Call.wiped) (shelf.view Recyclable.wipe)).map Shelf.disclosed =
      (Shelf.turns settings supplier calls shelf).map Shelf.disclosed := by
  induction calls generalizing shelf with
  | nil => rfl
  | cons request rest ih =>
      have conceals := blind.conceals settings shelf request
      simp only [List.map_cons, Shelf.turns, Shelf.disclosed, disclose, conceals.left, conceals.asked,
        conceals.whole, conceals.outline, made_wiped, discarded_wiped blind.isView, blind.isView.usage,
        Shelf.view_tally, ih]

variable [Hashable σ]

def disclosed (turn : Turn (protocol α σ) (Stock α σ)) : Disclosure α σ :=
  disclose turn.request turn.reply turn.asked turn.state.store.usage turn.state.tally

def disclosures (settings : Settings) (supplier : Supplier α σ) (calls : List (Call α σ)) : List (Disclosure α σ) :=
  ((service settings).turns supplier.answer calls () (Stock.ofLimit settings.limit)).map disclosed

variable [Std.TransOrd σ] [Std.LawfulEqOrd σ] (settings : Settings)

theorem disclosures_eq (supplier : Supplier α σ) (calls : List (Call α σ)) :
    disclosures settings supplier calls =
      (Shelf.turns settings supplier calls (Shelf.ofLimit settings.limit)).map Shelf.disclosed := by
  apply Coherent.turns_seen _ settings supplier calls (of_limit_coherent settings.limit)
  intro request reply asked stock coherent
  rw [disclosed, coherent.usage_eq]
  rfl

theorem Supplier.Blind.disclosures_akin {supplier : Supplier α σ} (blind : supplier.Blind) {alike : α → α → Prop}
    (wipes : ∀ one other : α, alike one other → Recyclable.wipe one = Recyclable.wipe other)
    {calls calls' : List (Call α σ)} (akin : List.Forall₂ (Call.Akin alike) calls calls') :
    disclosures settings supplier calls = disclosures settings supplier calls' := by
  have wiped := fun calls => blind.shelf_disclosed_wiped settings calls (Shelf.ofLimit settings.limit)
  calc disclosures settings supplier calls
      = _ := (disclosures_eq settings supplier calls).trans (wiped calls).symm
    _ = _ := by rw [Call.Akin.wiped wipes akin]
    _ = disclosures settings supplier calls' := (wiped calls').trans (disclosures_eq settings supplier calls').symm

end Pool

/-! ## Bitmaps and buffers -/

namespace Bitmap

structure Alike (one other : Bitmap) : Prop where
  frame : one.frame = other.frame
  writable : one.writable = other.writable
  size : one.pixels.size = other.pixels.size

theorem Alike.wipe_eq {one other : Bitmap} (alike : one.Alike other) :
    Recyclable.wipe one = Recyclable.wipe other := by
  show one.fill 0 = other.fill 0
  rw [fill, fill, alike.frame, alike.writable, alike.size]

theorem supplier_blind (source : BitmapSource) : source.supplier.Blind where
  isView := wipe_is_view
  wipes _ := Alike.wipe_eq ⟨rfl, rfl, Array.size_replicate⟩
  approves _ := rfl

end Bitmap

namespace Buffer

theorem wipe_eq_of_extent {one other : Buffer} (same : one.extent = other.extent) :
    Recyclable.wipe one = Recyclable.wipe other := by
  rw [wipe_eq, wipe_eq, same]

theorem supplier_blind : Buffer.supplier.Blind where
  isView := wipe_is_view
  wipes buffer := wipe_eq_of_extent buffer.wipe_extent
  approves _ := rfl

end Buffer

namespace Pool

/-- Whatever was in the objects that are put, a pool of bitmaps or of buffers discloses the same. -/
theorem old_contents_stay_secret :
    (∀ (settings : Settings) (source : BitmapSource) (calls calls' : List (Call Bitmap Frame)),
      List.Forall₂ (Call.Akin Bitmap.Alike) calls calls' →
        disclosures settings source.supplier calls = disclosures settings source.supplier calls') ∧
    (∀ (settings : Settings) (calls calls' : List (Call Buffer Extent)),
      List.Forall₂ (Call.Akin fun one other => one.extent = other.extent) calls calls' →
        disclosures settings Buffer.supplier calls = disclosures settings Buffer.supplier calls') := by
  constructor
  · intro settings source calls calls' akin
    exact (Bitmap.supplier_blind source).disclosures_akin settings (fun _ _ => Bitmap.Alike.wipe_eq) akin
  · intro settings calls calls' akin
    exact Buffer.supplier_blind.disclosures_akin settings (fun _ _ => Buffer.wipe_eq_of_extent) akin

/-- A bitmap and a longer buffer that were full of something else are handed out clean. -/
theorem painted_objects_are_handed_out_clean :
    let frame : Frame := ⟨2, 1, .alpha8⟩
    let painted := (Bitmap.blank frame).fill 255
    let dotted := ((Bitmap.blank frame).write 0 7).2
    let bitmaps := fun bitmap => [.put bitmap, .lookup .dirty frame, .put bitmap, .lookup .clean frame]
    let one : Buffer := .bytes #[1, 2, 3, 4]
    let other : Buffer := .bytes #[9, 9, 9, 9]
    let buffers := fun buffer => [.put buffer, .lookup .clean ⟨.byte, 3⟩]
    painted ≠ dotted ∧ one ≠ other ∧ painted.Alike dotted ∧ one.extent = other.extent ∧
      disclosures (Bitmap.poolSettings 100) BitmapSource.unrestricted.supplier (bitmaps painted) =
        disclosures (Bitmap.poolSettings 100) BitmapSource.unrestricted.supplier (bitmaps dotted) ∧
      disclosures (Buffer.poolSettings 100) Buffer.supplier (buffers one) =
        disclosures (Buffer.poolSettings 100) Buffer.supplier (buffers other) ∧
      (disclosures (Buffer.poolSettings 100) Buffer.supplier (buffers one)).map Disclosure.whole =
        [none, some (.bytes #[0, 0, 0, 0])] := by
  intro frame painted dotted bitmaps one other buffers
  have alike : painted.Alike dotted := ⟨rfl, rfl, rfl⟩
  refine ⟨by decide, by decide, alike, rfl, ?_, ?_, ?_⟩
  · exact old_contents_stay_secret.1 _ _ _ _ (.cons (.put alike) (.cons (.same _) (.cons (.put alike)
      (.cons (.same _) .nil))))
  · exact old_contents_stay_secret.2 _ _ _ (.cons (.put rfl) (.cons (.same _) .nil))
  · rw [disclosures_eq]
    decide

end Pool

end MemoryBudget
