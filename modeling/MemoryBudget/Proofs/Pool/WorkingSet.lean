import MemoryBudget.Proofs.Pool.Serving
import MemoryBudget.Proofs.Pool.Views
import MemoryBudget.Proofs.Pool.Objects
import Mathlib

/-!
# Working sets

A client that only puts back what it was handed needs no more objects of a shape than it ever has in hand at once. If
all of these fit into a pool that matches exactly, no more are made and none is discarded. The reason is that every
object that was made is either on the shelf or in hand: a lookup makes a new one only if all of its shape are in hand,
and then there are more in hand than ever before.
-/

set_option autoImplicit false

namespace MemoryBudget

namespace Pool

open Stock

variable {α σ φ : Type}

/-- What stays of an object in hand, to which the client may write. -/
structure Imprint (σ : Type) where
  shape : σ
  byteSize : UInt64
  deriving DecidableEq

section Hands

variable [DecidableEq σ] [Recyclable α σ]

def imprint (item : α) : Imprint σ :=
  ⟨Recyclable.shape item, Recyclable.byteSize item⟩

/-- A lookup hands an object out, and a put takes it back. -/
def passed (held : List (Imprint σ)) : Exchange (protocol α σ) → List (Imprint σ)
  | ⟨.lookup _ _, item⟩ => imprint (α := α) item :: held
  | ⟨.put item, _⟩ => held.erase (imprint item)
  | _ => held

def inHand (exchanged : List (Exchange (protocol α σ))) : List (Imprint σ) :=
  exchanged.foldl passed []

def held (shape : σ) (exchanged : List (Exchange (protocol α σ))) : Nat :=
  ((inHand exchanged).map Imprint.shape).count shape

def peak (shape : σ) (exchanged : List (Exchange (protocol α σ))) : Nat :=
  (Finset.range (exchanged.length + 1)).sup fun count => held shape (exchanged.take count)

def Call.requested? : Call α σ → Option σ
  | .lookup _ requested => some requested
  | _ => none

def requested (exchanged : List (Exchange (protocol α σ))) : List σ :=
  exchanged.filterMap fun exchange => Call.requested? exchange.request

/-- The client takes objects, and puts back what it has in hand if that can still be used. -/
def PutsBack (exchanged : List (Exchange (protocol α σ))) : Call α σ → Prop
  | .lookup _ _ | .usage | .tally => True
  | .put item => Recyclable.reusable item = true ∧ imprint item ∈ inHand exchanged
  | _ => False

/-- Every requested shape may be kept, and there is room for as many objects as are ever in hand. -/
structure Fits (settings : Settings) (bytes : σ → UInt64) (exchanged : List (Exchange (protocol α σ))) : Prop where
  each : ∀ shape ∈ requested exchanged,
    bytes shape < settings.limit ∧ settings.largestItem.all (bytes shape ≤ ·) = true
  together : ∑ shape ∈ (requested exchanged).toFinset, peak shape exchanged * (bytes shape).toNat ≤
    settings.limit.toNat

/-- Approves of everything, and makes objects of the requested shape, whose size is settled by the shape. -/
structure Supplier.Obliging (supplier : Supplier α σ) (bytes : σ → UInt64) : Prop where
  approves : ∀ item, supplier.approves item = true
  shape : ∀ requested, Recyclable.shape (supplier.allocate requested) = requested
  byteSize : ∀ requested, Recyclable.byteSize (supplier.allocate requested) = bytes requested

/-! ## Peaks -/

theorem in_hand_snoc (exchanged : List (Exchange (protocol α σ))) (exchange : Exchange (protocol α σ)) :
    inHand (exchanged ++ [exchange]) = passed (inHand exchanged) exchange := by
  simp [inHand]

theorem peak_snoc (shape : σ) (exchanged : List (Exchange (protocol α σ))) (exchange : Exchange (protocol α σ)) :
    peak shape (exchanged ++ [exchange]) = max (peak shape exchanged) (held shape (exchanged ++ [exchange])) := by
  have shorter : ∀ count ∈ Finset.range (exchanged.length + 1),
      held shape ((exchanged ++ [exchange]).take count) = held shape (exchanged.take count) := by
    intro count inRange
    rw [List.take_append_of_le_length (Nat.lt_succ_iff.mp (Finset.mem_range.mp inRange))]
  rw [peak, List.length_append, List.length_singleton, Finset.range_add_one, Finset.sup_insert,
    Finset.sup_congr rfl shorter, List.take_of_length_le (by simp)]
  exact max_comm _ _

theorem peak_le_append (shape : σ) (earlier later : List (Exchange (protocol α σ))) :
    peak shape earlier ≤ peak shape (earlier ++ later) := by
  induction later using List.reverseRecOn with
  | nil => rw [List.append_nil]
  | append_singleton later exchange ih =>
      rw [← List.append_assoc, peak_snoc]
      exact ih.trans (le_max_left _ _)

theorem Fits.of_append {settings : Settings} {bytes : σ → UInt64} {earlier later : List (Exchange (protocol α σ))}
    (fits : Fits settings bytes (earlier ++ later)) : Fits settings bytes earlier := by
  have earlierRequested : requested earlier ⊆ requested (earlier ++ later) := by simp [requested]
  constructor
  · intro shape member
    exact fits.each shape (earlierRequested member)
  · apply le_trans _ fits.together
    calc ∑ shape ∈ (requested earlier).toFinset, peak shape earlier * (bytes shape).toNat
        ≤ ∑ shape ∈ (requested earlier).toFinset, peak shape (earlier ++ later) * (bytes shape).toNat := by
          gcongr
          exact peak_le_append _ _ _
      _ ≤ ∑ shape ∈ (requested (earlier ++ later)).toFinset, peak shape (earlier ++ later) * (bytes shape).toNat := by
          apply Finset.sum_le_sum_of_subset
          intro shape member
          exact List.mem_toFinset.mpr (earlierRequested (List.mem_toFinset.mp member))

theorem in_hand_lookup (care : Care) (wanted : σ) (item : α) (exchanged : List (Exchange (protocol α σ))) :
    inHand (exchanged ++ [⟨.lookup care wanted, item⟩]) = imprint item :: inHand exchanged :=
  in_hand_snoc _ _

theorem held_lookup (shape : σ) (care : Care) (wanted : σ) (item : α) (exchanged : List (Exchange (protocol α σ))) :
    held shape (exchanged ++ [⟨.lookup care wanted, item⟩]) =
      held shape exchanged + if Recyclable.shape item = shape then 1 else 0 := by
  rw [held, in_hand_lookup, List.map_cons, List.count_cons, held, imprint]
  simp only [beq_iff_eq]

/-! ## Every object is on the shelf or in hand -/

def around (exchanged : List (Exchange (protocol α σ))) (shelf : Shelf α) : List (Imprint σ) :=
  shelf.items.map imprint ++ inHand exchanged

/-- Nothing was lost on the way, and nothing was made in vain. -/
structure Circulates (settings : Settings) (bytes : σ → UInt64) (exchanged : List (Exchange (protocol α σ)))
    (made : List σ) (shelf : Shelf α) : Prop where
  limit : shelf.limit = settings.limit
  evictions : shelf.tally.evictions = 0
  sized : ∀ item ∈ around exchanged shelf, item.byteSize = bytes item.shape
  wanted : ∀ item ∈ around exchanged shelf, item.shape ∈ requested exchanged
  made : made.Perm ((around exchanged shelf).map Imprint.shape)
  peaks : ∀ shape, ((around exchanged shelf).map Imprint.shape).count shape = peak shape exchanged

variable {settings : Settings} {bytes : σ → UInt64} {exchanged : List (Exchange (protocol α σ))} {made : List σ}
  {shelf : Shelf α}

theorem held_le_around (shape : σ) (exchanged : List (Exchange (protocol α σ))) (shelf : Shelf α) :
    held shape exchanged ≤ ((around exchanged shelf).map Imprint.shape).count shape := by
  rw [around, List.map_append, List.count_append]
  exact Nat.le_add_left _ _

theorem around_lookup (care : Care) (wanted : σ) (item : α) (exchanged : List (Exchange (protocol α σ)))
    {shelf shelf' : Shelf α} (items : shelf'.items = shelf.items) :
    (around (exchanged ++ [⟨.lookup care wanted, item⟩]) shelf').Perm (imprint item :: around exchanged shelf) := by
  rw [around, around, in_hand_lookup, items]
  exact List.perm_middle

theorem circulates_nothing (settings : Settings) (bytes : σ → UInt64) :
    Circulates settings bytes [] [] (Shelf.ofLimit settings.limit : Shelf α) where
  limit := rfl
  evictions := rfl
  sized := nofun
  wanted := nofun
  made := .nil
  peaks _ := rfl

namespace Circulates

/-- If objects change places only, no more of them are in hand than ever before. -/
theorem exchange (circulates : Circulates settings bytes exchanged made shelf) {exchange : Exchange (protocol α σ)}
    {shelf' : Shelf α} (limit : shelf'.limit = shelf.limit)
    (evictions : shelf'.tally.evictions = shelf.tally.evictions)
    (moved : (around (exchanged ++ [exchange]) shelf').Perm (around exchanged shelf)) :
    Circulates settings bytes (exchanged ++ [exchange]) made shelf' where
  limit := limit.trans circulates.limit
  evictions := evictions.trans circulates.evictions
  sized item member := circulates.sized item (moved.mem_iff.mp member)
  wanted item member := by
    have before := circulates.wanted item (moved.mem_iff.mp member)
    simp only [requested, List.filterMap_append, List.mem_append]
    exact Or.inl before
  made := circulates.made.trans (moved.map _).symm
  peaks shape := by
    have same := ((moved.map Imprint.shape).count_eq shape).trans (circulates.peaks shape)
    have atMost := held_le_around shape (exchanged ++ [exchange]) shelf'
    rw [peak_snoc]
    omega

/-- If none of its shape is on the shelf, all that were ever made are in hand. -/
theorem peak_of_missing (circulates : Circulates settings bytes exchanged made shelf) {shape : σ}
    (missing : ∀ other ∈ shelf.items, Recyclable.shape other ≠ shape) : peak shape exchanged = held shape exchanged := by
  have noneShelved : ((shelf.items.map imprint).map Imprint.shape).count shape = 0 := by
    rw [List.count_eq_zero]
    simpa [imprint] using missing
  rw [← circulates.peaks shape, around, List.map_append, List.count_append, noneShelved, held, Nat.zero_add]

theorem make (circulates : Circulates settings bytes exchanged made shelf) {care : Care} {wanted : σ} {item : α}
    {shelf' : Shelf α} (limit : shelf'.limit = shelf.limit)
    (evictions : shelf'.tally.evictions = shelf.tally.evictions) (items : shelf'.items = shelf.items)
    (missing : ∀ other ∈ shelf.items, Recyclable.shape other ≠ wanted) (shape : Recyclable.shape item = wanted)
    (byteSize : Recyclable.byteSize item = bytes wanted) :
    Circulates settings bytes (exchanged ++ [⟨.lookup care wanted, item⟩]) (made ++ [wanted]) shelf' := by
  have allInHand := circulates.peak_of_missing missing
  subst shape
  have added := around_lookup care (Recyclable.shape item) item exchanged items
  constructor
  · exact limit.trans circulates.limit
  · exact evictions.trans circulates.evictions
  · intro other member
    rcases List.mem_cons.mp (added.mem_iff.mp member) with rfl | before
    · exact byteSize
    · exact circulates.sized other before
  · intro other member
    simp only [requested, List.filterMap_append, List.mem_append]
    rcases List.mem_cons.mp (added.mem_iff.mp member) with rfl | before
    · exact Or.inr (by simp [Call.requested?, imprint])
    · exact Or.inl (circulates.wanted other before)
  · apply (List.perm_append_singleton _ made).trans
    exact (circulates.made.cons _).trans (added.map Imprint.shape).symm
  · intro other
    have before := circulates.peaks other
    have after := (added.map Imprint.shape).count_eq other
    have heldBefore := held_le_around other exchanged shelf
    rw [peak_snoc, held_lookup]
    rw [List.map_cons, List.count_cons, imprint] at after
    simp only [beq_iff_eq] at after
    split_ifs at after ⊢ with same
    · -- All of this shape were in hand already, so with one more there are more than ever before.
      subst same
      omega
    · omega

omit [DecidableEq σ] in
theorem total_size_imprints (items : List α) :
    Shelf.totalSize items = ((items.map imprint).map (·.byteSize.toNat)).sum := by
  induction items with
  | nil => rfl
  | cons item rest ih => rw [Shelf.totalSize, ih, List.map_cons, List.map_cons, List.sum_cons, imprint]

theorem total_le (circulates : Circulates settings bytes exchanged made shelf)
    (fits : Fits settings bytes exchanged) :
    ((around exchanged shelf).map (·.byteSize.toNat)).sum ≤ settings.limit.toNat := by
  have sizes : (around exchanged shelf).map (·.byteSize.toNat) =
      ((around exchanged shelf).map Imprint.shape).map fun shape => (bytes shape).toNat := by
    rw [List.map_map]
    apply List.map_congr_left
    intro item member
    rw [circulates.sized item member]
    rfl
  have requestedOnly : ((around exchanged shelf).map Imprint.shape).toFinset ⊆ (requested exchanged).toFinset := by
    intro shape member
    obtain ⟨item, isAround, rfl⟩ := List.mem_map.mp (List.mem_toFinset.mp member)
    exact List.mem_toFinset.mpr (circulates.wanted item isAround)
  rw [sizes, Finset.sum_list_map_count]
  apply (Finset.sum_le_sum_of_subset requestedOnly).trans
  simp only [circulates.peaks, smul_eq_mul]
  exact fits.together

end Circulates

end Hands

/-! ## Calls -/

section Calls

variable [DecidableEq σ] [Ord σ] [Recyclable α σ] {settings : Settings} {bytes : σ → UInt64}
  {exchanged : List (Exchange (protocol α σ))} {made : List σ} {shelf : Shelf α} {supplier : Supplier α σ}

structure Thrifty (settings : Settings) (bytes : σ → UInt64) (exchanged : List (Exchange (protocol α σ)))
    (made : List σ) (request : Call α σ) (served : (protocol α σ).Reply request × Shelf α × List (Query α σ)) :
    Prop where
  circulates : Circulates settings bytes (exchanged ++ [⟨request, served.1⟩])
    (made ++ served.2.2.filterMap Query.made?) served.2.1
  keeps : ∀ item, .discard item ∉ served.2.2

namespace Circulates

theorem lookup (circulates : Circulates settings bytes exchanged made shelf) (strict : settings.matching = .exact)
    (obliging : supplier.Obliging bytes) (wipes : View (Recyclable.wipe : α → α)) (care : Care) (wanted : σ) :
    Thrifty settings bytes exchanged made (.lookup care wanted)
      (shelf.serve settings supplier (.lookup care wanted)) := by
  have exactly : care.matching settings = .exact := by cases care <;> simp [Care.matching, strict]
  rcases shelf.take_cases .exact wanted with
    ⟨fresher, item, colder, parted, _, _, taken⟩ | ⟨missing, taken⟩
  · have sameImprint : imprint (care.hand item) = imprint item := by
      cases care <;> simp [Care.hand, imprint, wipes.shape, wipes.byteSize]
    simp only [Shelf.serve, exactly, taken]
    constructor
    · rw [List.filterMap_nil, List.append_nil]
      apply circulates.exchange
      · rfl
      · rfl
      · have handed := in_hand_lookup care wanted (care.hand item) exchanged
        rw [around, around, handed, sameImprint, parted, List.map_append, List.map_append, List.map_cons, List.append_assoc,
          List.append_assoc, List.cons_append]
        exact List.perm_middle.append_left _
    · exact fun _ => List.not_mem_nil
  · simp only [Shelf.serve, exactly, taken]
    constructor
    · apply circulates.make
      · rfl
      · rfl
      · rfl
      · intro other member same
        exact missing other member (congrArg some same.symm)
      · exact obliging.shape wanted
      · exact obliging.byteSize wanted
    · simp

theorem put (circulates : Circulates settings bytes exchanged made shelf) (obliging : supplier.Obliging bytes)
    (fits : Fits settings bytes exchanged) {item : α} (mayCall : PutsBack exchanged (.put item)) :
    Thrifty settings bytes exchanged made (.put item) (shelf.serve settings supplier (.put item)) := by
  obtain ⟨reusable, isHeld⟩ := mayCall
  have isAround : imprint item ∈ around exchanged shelf := List.mem_append_right _ isHeld
  have size : Recyclable.byteSize item = bytes (Recyclable.shape item) := circulates.sized _ isAround
  obtain ⟨below, single⟩ := fits.each _ (circulates.wanted _ isAround)
  have admits : settings.admits item = true := by
    rw [Settings.admits, reusable, size]
    exact single
  have moved : ((item :: shelf.items).map imprint ++ (inHand exchanged).erase (imprint item)).Perm
      (around exchanged shelf) :=
    List.perm_middle.symm.trans ((List.perm_cons_erase isHeld).symm.append_left _)
  -- The object is one of those around, and all of them fit together.
  have room : Shelf.totalSize (item :: shelf.items) ≤ shelf.limit.toNat := by
    have all := circulates.total_le fits
    rw [← (moved.map _).sum_eq, List.map_append, List.sum_append, ← total_size_imprints] at all
    rw [circulates.limit]
    omega
  have offered := Shelf.offer_of_fits (by rw [size, circulates.limit]; exact below) room
  simp only [Shelf.serve, admits, obliging.approves, if_true, offered]
  constructor
  · rw [List.map_nil, List.filterMap_cons_none rfl, List.filterMap_nil, List.append_nil]
    apply circulates.exchange
    · rfl
    · rfl
    · rw [around, in_hand_snoc]
      exact moved
  · simp

omit [Ord σ] in
theorem look (circulates : Circulates settings bytes exchanged made shelf) {request : Call α σ}
    {reply : (protocol α σ).Reply request} (looks : request = .usage ∨ request = .tally) :
    Thrifty settings bytes exchanged made request (reply, shelf, []) := by
  constructor
  · rw [List.filterMap_nil, List.append_nil]
    apply circulates.exchange
    · rfl
    · rfl
    · rw [around, in_hand_snoc]
      rcases looks with rfl | rfl <;> rfl
  · exact fun _ => List.not_mem_nil

theorem serve (circulates : Circulates settings bytes exchanged made shelf) (strict : settings.matching = .exact)
    (obliging : supplier.Obliging bytes) (wipes : View (Recyclable.wipe : α → α))
    (fits : Fits settings bytes exchanged) {request : Call α σ} (mayCall : PutsBack exchanged request) :
    Thrifty settings bytes exchanged made request (shelf.serve settings supplier request) := by
  cases request with
  | lookup care wanted => exact circulates.lookup strict obliging wipes care wanted
  | put item => exact circulates.put obliging fits mayCall
  | usage => exact circulates.look (.inl rfl)
  | tally => exact circulates.look (.inr rfl)
  | trimTo target => exact mayCall.elim
  | clear => exact mayCall.elim
  | trim pressure => exact mayCall.elim
  | rescale multiplier => exact mayCall.elim

end Circulates

end Calls

/-! ## Runs -/

section Runs

variable [DecidableEq σ] [Hashable σ] [Ord σ] [Recyclable α σ] {settings : Settings} {bytes : σ → UInt64}
  {answer : (query : (protocol α σ).Query) → φ → (protocol α σ).Answer query × φ}

def madeIn (turns : List (Turn (protocol α σ) (Stock α σ))) : List σ :=
  turns.flatMap fun turn => turn.asked.filterMap Query.made?

def KeepsAll (turn : Turn (protocol α σ) (Stock α σ)) : Prop :=
  turn.state.tally.evictions = 0 ∧ ∀ item, .discard item ∉ turn.asked

structure Spares (settings : Settings) (bytes : σ → UInt64) (turns : List (Turn (protocol α σ) (Stock α σ)))
    (stock : Stock α σ) : Prop where
  coherent : Coherent stock
  circulates : Circulates settings bytes (turns.map Turn.toExchange) (madeIn turns) stock.shelf
  keepAll : ∀ turn ∈ turns, KeepsAll turn

theorem spares_nothing (settings : Settings) (bytes : σ → UInt64) :
    Spares settings bytes [] (Stock.ofLimit settings.limit : Stock α σ) where
  coherent := of_limit_coherent settings.limit
  circulates := circulates_nothing settings bytes
  keepAll := nofun

variable [Std.TransOrd σ] [Std.LawfulEqOrd σ]

theorem Spares.turn {before : List (Turn (protocol α σ) (Stock α σ))} {stock : Stock α σ}
    (spares : Spares settings bytes before stock) (strict : settings.matching = .exact)
    (obliging : ∀ memory, (supplierAt answer memory).Obliging bytes) (wipes : View (Recyclable.wipe : α → α))
    {request : Call α σ} (mayCall : PutsBack (before.map Turn.toExchange) request)
    (fits : Fits settings bytes (before.map Turn.toExchange)) (memory : φ) :
    let performed := (service settings).perform (.noting answer) request stock (memory, [])
    Spares settings bytes
      (before ++ [{ request := request, reply := performed.1, asked := performed.2.2.2, state := performed.2.1 }])
      performed.2.1 := by
  intro performed
  obtain ⟨reply, left, asked, later⟩ := spares.coherent.perform_serves settings answer request memory
  have thrifty := spares.circulates.serve strict (obliging memory) wipes fits mayCall
  have circulates := thrifty.circulates
  rw [← reply, ← left, ← asked] at circulates
  constructor
  · exact later
  · rw [List.map_append, madeIn, List.flatMap_append, List.flatMap_singleton]
    exact circulates
  · intro turn member
    rcases List.mem_append.mp member with before | new
    · exact spares.keepAll turn before
    · rw [List.mem_singleton.mp new]
      refine ⟨circulates.evictions, fun item => ?_⟩
      rw [asked]
      exact thrifty.keeps item

/-- A client with a working set that fits never causes an eviction, and has just as many objects of each shape made as it
once has in hand at the same time. -/
theorem working_set_that_fits_is_made_once (strict : settings.matching = .exact)
    (obliging : ∀ memory, (supplierAt answer memory).Obliging bytes) (wipes : View (Recyclable.wipe : α → α))
    (calls : List (Call α σ)) (memory : φ) :
    let turns := (service settings).turns answer calls memory (Stock.ofLimit settings.limit)
    let exchanged := turns.map Turn.toExchange
    Orderly PutsBack exchanged → Fits settings bytes exchanged →
      (∀ turn ∈ turns, KeepsAll turn) ∧ ∀ shape, (madeIn turns).count shape = peak shape exchanged := by
  intro turns exchanged orderly fits
  have fitting : Orderly (fun before request => PutsBack before request ∧ Fits settings bytes before) exchanged := by
    intro earlier exchange later parted
    exact ⟨orderly earlier exchange later parted, (parted ▸ fits).of_append⟩
  obtain ⟨last, spares⟩ : ∃ last, Spares settings bytes turns last := by
    apply Service.turns_preserve _ calls memory _ [] (spares_nothing settings bytes) fitting
    intro before request memory stock spares mayCall
    exact spares.turn strict obliging wipes mayCall.1 mayCall.2 memory
  constructor
  · exact spares.keepAll
  · intro shape
    exact (spares.circulates.made.count_eq shape).trans (spares.circulates.peaks shape)

theorem bitmaps_oblige : BitmapSource.unrestricted.supplier.Obliging Frame.byteSize where
  approves _ := rfl
  shape _ := rfl
  byteSize frame := by
    show UInt64.ofNat (Bitmap.blank frame).pixels.size = frame.byteSize
    rw [Bitmap.blank, Array.size_replicate, UInt64.ofNat_toNat]

/-- Two bitmaps of one frame and one of another go in and out, and three of them fit. -/
theorem three_bitmaps_serve_six_lookups :
    let square : Frame := ⟨2, 2, .alpha8⟩
    let line : Frame := ⟨3, 1, .alpha8⟩
    let settings := Bitmap.poolSettings 11
    let calls : List (Call Bitmap Frame) := [.lookup .clean square, .lookup .dirty square,
      .put ((Bitmap.blank square).fill 7), .lookup .exact line, .put (Bitmap.blank line), .lookup .dirty square,
      .put (Bitmap.blank square), .lookup .clean square, .lookup .clean line]
    let turns := (service settings).turns BitmapSource.unrestricted.supplier.answer calls ()
      (Stock.ofLimit settings.limit)
    (∀ turn ∈ turns, KeepsAll turn) ∧ (madeIn turns).count square = 2 ∧ (madeIn turns).count line = 1 := by
  intro square line settings calls turns
  have seen : turns.map Turn.toExchange =
      (Shelf.turns settings BitmapSource.unrestricted.supplier calls (Shelf.ofLimit settings.limit)).map
        Turn.toExchange :=
    Coherent.turns_seen (fun _ _ _ _ _ => rfl) settings _ calls (of_limit_coherent settings.limit)
  have exchanged : turns.map Turn.toExchange = [⟨.lookup .clean square, Bitmap.blank square⟩,
      ⟨.lookup .dirty square, Bitmap.blank square⟩, ⟨.put ((Bitmap.blank square).fill 7), ()⟩,
      ⟨.lookup .exact line, Bitmap.blank line⟩, ⟨.put (Bitmap.blank line), ()⟩,
      ⟨.lookup .dirty square, (Bitmap.blank square).fill 7⟩, ⟨.put (Bitmap.blank square), ()⟩,
      ⟨.lookup .clean square, Bitmap.blank square⟩, ⟨.lookup .clean line, Bitmap.blank line⟩] := by
    rw [seen]
    cbv
  have obliging : ∀ memory : Unit,
      (supplierAt BitmapSource.unrestricted.supplier.answer memory).Obliging Frame.byteSize :=
    fun _ => bitmaps_oblige
  have orderly : Orderly PutsBack (turns.map Turn.toExchange) := by
    rw [exchanged]
    exact ((((((((orderly_nothing.snoc trivial).snoc trivial).snoc ⟨rfl, by decide⟩).snoc trivial).snoc
      ⟨rfl, by decide⟩).snoc trivial).snoc ⟨rfl, by decide⟩).snoc trivial).snoc trivial
  have fits : Fits settings Frame.byteSize (turns.map Turn.toExchange) := by
    rw [exchanged]
    constructor <;> decide
  obtain ⟨keepAll, made⟩ := working_set_that_fits_is_made_once rfl obliging Bitmap.wipe_is_view calls () orderly fits
  refine ⟨keepAll, ?_, ?_⟩
  · exact (made square).trans (by rw [exchanged]; decide)
  · exact (made line).trans (by rw [exchanged]; decide)

end Runs

end Pool

end MemoryBudget
