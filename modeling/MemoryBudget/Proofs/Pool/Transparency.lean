import MemoryBudget.Proofs.Dialogue.Transcript
import MemoryBudget.Proofs.Pool.Objects
import MemoryBudget.Proofs.Pool.Supply

/-!
# Pooling is transparent

Whoever asks a pool of bitmaps for a clean one cannot tell a used bitmap from a new one, whatever bitmaps were put: a
pool keeps writable bitmaps only, each with as many bytes as its frame says, and finds them under their own frame. So
a client that reads no sizes or counts cannot tell whether bitmaps are pooled at all.
-/

set_option autoImplicit false

namespace MemoryBudget

namespace Pool

open Stock

variable {φ β : Type}

def handed {α σ : Type} : Exchange (protocol α σ) → List α
  | ⟨.lookup _ _, item⟩ => [item]
  | _ => []

/-- Bitmaps that are put have been obtained before. -/
def ObtainablePut (before : List (Exchange (protocol Bitmap Frame))) : Call Bitmap Frame → Prop
  | .put bitmap => Bitmap.Obtainable (before.flatMap handed) bitmap
  | _ => True

/-- The calls by which bitmaps are looked up, put and given up; they are looked up clean. -/
def PlainCall (before : List (Exchange (protocol Bitmap Frame))) : Call Bitmap Frame → Prop
  | .lookup care _ => care = .clean
  | .put bitmap => Bitmap.Obtainable (before.flatMap handed) bitmap
  | .clear | .trim _ | .rescale _ => True
  | .trimTo _ | .usage | .tally => False

/-- A clean lookup hands out a new bitmap, as far as can be seen. -/
def LooksNew : (request : Call Bitmap Frame) → (protocol Bitmap Frame).Reply request → Prop
  | .lookup care frame, bitmap => care ≠ .dirty → (bitmap : Bitmap) = Bitmap.blank frame
  | _, _ => True

/-- Resident bitmaps can be wiped to new ones, and all bitmaps that were handed out are sound. -/
structure Tidy (before : List (Exchange (protocol Bitmap Frame))) (shelf : Shelf Bitmap) : Prop where
  writable : ∀ bitmap ∈ shelf.items, bitmap.writable = true
  sound : ∀ bitmap ∈ shelf.items, bitmap.Sound
  handed : ∀ bitmap ∈ before.flatMap handed, bitmap.Sound

theorem handed_of_quiet {α σ : Type} {request : Call α σ} (quiet : request.Quiet)
    (reply : (protocol α σ).Reply request) : handed ⟨request, reply⟩ = [] := by
  cases request with
  | lookup care requested => exact quiet.elim
  | _ => rfl

/-- Bitmaps that stay or are put are writable and sound, and so is one that is handed out. -/
theorem Tidy.extend {before : List (Exchange (protocol Bitmap Frame))} {shelf shelf' : Shelf Bitmap}
    (tidy : Tidy before shelf) (exchange : Exchange (protocol Bitmap Frame))
    (kept : ∀ bitmap ∈ shelf'.items, bitmap ∈ shelf.items ∨ (bitmap.writable = true ∧ bitmap.Sound))
    (sound : ∀ bitmap ∈ Pool.handed exchange, bitmap.Sound) : Tidy (before ++ [exchange]) shelf' := by
  constructor
  · intro bitmap member
    rcases kept bitmap member with old | ⟨writable, _⟩
    · exact tidy.writable bitmap old
    · exact writable
  · intro bitmap member
    rcases kept bitmap member with old | ⟨_, sound⟩
    · exact tidy.sound bitmap old
    · exact sound
  · intro bitmap member
    rw [List.flatMap_append, List.flatMap_singleton] at member
    rcases List.mem_append.mp member with old | fresh
    · exact tidy.handed bitmap old
    · exact sound bitmap fresh

/-- A bitmap of the requested frame is handed out, and it looks new unless it was asked for as it is. -/
theorem Tidy.recycled {before : List (Exchange (protocol Bitmap Frame))} {shelf : Shelf Bitmap}
    (tidy : Tidy before shelf) (care : Care) {bitmap : Bitmap} (resident : bitmap ∈ shelf.items) :
    (care.hand bitmap).Sound ∧ (care ≠ .dirty → care.hand bitmap = Bitmap.blank bitmap.frame) := by
  have sound := tidy.sound bitmap resident
  unfold Care.hand
  by_cases dirty : care = .dirty
  · rw [if_pos dirty]
    exact ⟨sound, fun clean => absurd dirty clean⟩
  · rw [if_neg dirty]
    exact ⟨sound.fill 0, fun _ => sound.wipe_eq (tidy.writable bitmap resident)⟩

theorem Tidy.supplied {settings : Settings} (exact : settings.matching = .exact) {source : BitmapSource}
    {before : List (Exchange (protocol Bitmap Frame))} {shelf : Shelf Bitmap} (tidy : Tidy before shelf)
    {request : Call Bitmap Frame} {outcome : (protocol Bitmap Frame).Reply request × Shelf Bitmap}
    (allowed : ObtainablePut before request)
    (supplied : Shelf.Supplied settings source.supplier shelf request outcome) :
    Tidy (before ++ [⟨request, outcome.1⟩]) outcome.2 ∧ LooksNew request outcome.1 := by
  cases supplied with
  | @recycles shelf' bitmap care frame resident kept serving =>
      have sameFrame : bitmap.frame = frame := by
        have matching : care.matching settings = .exact := by
          unfold Care.matching
          rw [exact, ite_self]
        rw [matching] at serving
        exact (Option.some.inj serving).symm
      obtain ⟨sound, new⟩ := tidy.recycled care resident
      constructor
      · apply tidy.extend
        · exact fun other member => Or.inl (kept member)
        · intro other member
          rw [List.mem_singleton.mp member]
          exact sound
      · rw [sameFrame] at new
        exact new
  | @makes shelf' care frame kept =>
      constructor
      · apply tidy.extend
        · exact fun other member => Or.inl (kept member)
        · intro other member
          rw [List.mem_singleton.mp member]
          exact Bitmap.blank_sound frame
      · exact fun _ => rfl
  | @puts shelf' bitmap admits kept =>
      have writable : bitmap.writable = true := (Bool.and_eq_true_iff.mp admits).1
      have sound : bitmap.Sound := Bitmap.Obtainable.sound tidy.handed allowed
      refine ⟨tidy.extend _ ?_ fun _ none => (nomatch none), trivial⟩
      intro other member
      rcases List.mem_cons.mp (kept member) with rfl | old
      · exact Or.inr ⟨writable, sound⟩
      · exact Or.inl old
  | declines bitmap =>
      exact ⟨tidy.extend _ (fun other member => Or.inl member) fun _ none => (nomatch none), trivial⟩
  | @sheds shelf' request quiet reply kept =>
      constructor
      · apply tidy.extend
        · exact fun other member => Or.inl (kept member)
        · rw [handed_of_quiet quiet]
          exact fun _ none => nomatch none
      · cases request with
        | lookup care frame => exact quiet.elim
        | _ => trivial

/-! ## Pools of bitmaps -/

structure InOrder (before : List (Exchange (protocol Bitmap Frame))) (stock : Stock Bitmap Frame) : Prop where
  coherent : Coherent stock
  tidy : Tidy before stock.shelf

theorem of_limit_in_order (limit : UInt64) : InOrder [] (Stock.ofLimit limit) where
  coherent := of_limit_coherent limit
  tidy := ⟨(fun _ none => nomatch none), (fun _ none => nomatch none), (fun _ none => nomatch none)⟩

/-- After each call the pool is in order, and what was handed out looks new. -/
theorem InOrder.perform {settings : Settings} (exact : settings.matching = .exact) (source : BitmapSource)
    {before : List (Exchange (protocol Bitmap Frame))} {stock : Stock Bitmap Frame} (inOrder : InOrder before stock)
    {request : Call Bitmap Frame} (allowed : ObtainablePut before request) (memory : φ) :
    InOrder (before ++ [⟨request, ((service settings).perform source.supplier.attendant request stock memory).1⟩])
        ((service settings).perform source.supplier.attendant request stock memory).2.1 ∧
      LooksNew request ((service settings).perform source.supplier.attendant request stock memory).1 ∧
      ((service settings).perform source.supplier.attendant request stock memory).2.2 = memory := by
  obtain ⟨follows, coherent⟩ := inOrder.coherent.perform_follows settings source.supplier request memory
  obtain ⟨supplied, same⟩ := Shelf.perform_supplied settings source.supplier stock.shelf memory request
  rw [follows] at supplied same
  obtain ⟨tidy, new⟩ := inOrder.tidy.supplied exact allowed supplied
  exact ⟨⟨coherent, tidy⟩, new, same⟩

theorem in_order_after {settings : Settings} (exact : settings.matching = .exact) (source : BitmapSource)
    (limit : UInt64) (script : Script (protocol Bitmap Frame) φ β) (memory : φ)
    (orderly : Orderly ObtainablePut
      ((service settings).transcript source.supplier.attendant script memory (Stock.ofLimit limit))) :
    ∃ before, InOrder before
      ((service settings).attend source.supplier.attendant script memory (Stock.ofLimit limit)).2.2 := by
  refine ⟨_, Service.attend_preserves ?_ script memory (Stock.ofLimit limit) orderly (of_limit_in_order limit)⟩
  intro before request stock memory inOrder allowed
  exact (inOrder.perform exact source allowed memory).1

/-! ## Pools of buffers -/

/-- A clean lookup hands out a new buffer of the same kind that is long enough, and of the very length if no other
will do. -/
def LooksZeroed : (request : Call Buffer Extent) → (protocol Buffer Extent).Reply request → Prop
  | .lookup care extent, buffer => care ≠ .dirty →
      ∃ length, extent.length ≤ length ∧ (care = .exact → length = extent.length) ∧
        (buffer : Buffer) = Buffer.zeroed { extent with length := length }
  | _, _ => True

theorem looks_zeroed_of_supplied {limit : UInt64} {shelf : Shelf Buffer} {request : Call Buffer Extent}
    {outcome : (protocol Buffer Extent).Reply request × Shelf Buffer}
    (supplied : Shelf.Supplied (Buffer.poolSettings limit) Buffer.supplier shelf request outcome) :
    LooksZeroed request outcome.1 := by
  cases supplied with
  | @recycles shelf' buffer care extent resident kept serving =>
      intro clean
      have wiped : care.hand buffer = Buffer.zeroed buffer.extent := by
        unfold Care.hand
        rw [if_neg clean]
        exact buffer.wipe_eq
      cases care with
      | dirty => exact absurd rfl clean
      | exact =>
          have same : extent = buffer.extent := Option.some.inj serving
          rw [same]
          exact ⟨_, Nat.le_refl _, fun _ => rfl, wiped⟩
      | clean =>
          have serves := Shelf.serves_of_serving serving
          obtain ⟨fits, _⟩ := Bool.and_eq_true_iff.mp serves
          obtain ⟨element, length⟩ := Bool.and_eq_true_iff.mp fits
          have sameElement : buffer.extent.element = extent.element := eq_of_beq element
          have longEnough : extent.length ≤ buffer.extent.length := of_decide_eq_true length
          refine ⟨buffer.extent.length, longEnough, (fun same => nomatch same), ?_⟩
          rw [← sameElement]
          exact wiped
  | makes care extent kept => exact fun _ => ⟨extent.length, Nat.le_refl _, fun _ => rfl, rfl⟩
  | puts buffer admits kept => trivial
  | declines buffer => trivial
  | sheds request quiet reply kept =>
      cases request with
      | lookup care extent => exact quiet.elim
      | _ => trivial

/-! ## Depots -/

def pooling {α σ : Type} [DecidableEq σ] [Hashable σ] [Ord σ] [Recyclable α σ] (settings : Settings) :
    (service (α := α) (σ := σ) settings).Version (Depot α σ) where
  start := Depot.start
  resume := Depot.resume
  advances := Depot.resume_advances

theorem pooling_mirrors {α σ : Type} [DecidableEq σ] [Hashable σ] [Ord σ] [Recyclable α σ] (settings : Settings) :
    (pooling (α := α) (σ := σ) settings).Mirrors (Depot.pooled settings) fun _ => True where
  start request stock _ := ⟨by cases request <;> rfl, trivial⟩
  resume work answer stock _ := ⟨by cases work <;> rfl, trivial⟩

theorem depot_perform (settings : Settings) (source : BitmapSource) (request : Call Bitmap Frame)
    (stock : Stock Bitmap Frame) (memory : φ) :
    Depot.service.perform source.supplier.attendant request (.pooled settings stock) memory =
      (((service settings).perform source.supplier.attendant request stock memory).1,
        .pooled settings ((service settings).perform source.supplier.attendant request stock memory).2.1,
        ((service settings).perform source.supplier.attendant request stock memory).2.2) :=
  ((pooling_mirrors settings).perform _ request stock memory trivial).1

def PlainReply : (request : Call Bitmap Frame) → (protocol Bitmap Frame).Reply request → Prop
  | .lookup _ frame, bitmap => (bitmap : Bitmap) = Bitmap.blank frame
  | .rescale multiplier, reply => (reply : Except InvalidMultiplier Unit) = multiplier.validate
  | _, _ => True

theorem plain_reply_unique {before : List (Exchange (protocol Bitmap Frame))} {request : Call Bitmap Frame}
    (plain : PlainCall before request) {reply reply' : (protocol Bitmap Frame).Reply request}
    (isPlain : PlainReply request reply) (isPlain' : PlainReply request reply') : reply = reply' := by
  cases request with
  | lookup care frame => exact Eq.trans isPlain (Eq.symm isPlain')
  | rescale multiplier => exact Eq.trans isPlain (Eq.symm isPlain')
  | put bitmap => rfl
  | clear => rfl
  | trim pressure => rfl
  | trimTo target => exact plain.elim
  | usage => exact plain.elim
  | tally => exact plain.elim

/-- A depot that does not pool has a new bitmap for each lookup, and frees what is put. -/
theorem unpooled_perform (source : BitmapSource) {before : List (Exchange (protocol Bitmap Frame))}
    {request : Call Bitmap Frame} (plain : PlainCall before request) (memory : φ) :
    ∃ reply, Depot.service.perform source.supplier.attendant request (.unpooled : Depot Bitmap Frame) memory =
      (reply, .unpooled, memory) ∧ PlainReply request reply := by
  cases request with
  | lookup care frame =>
      refine ⟨(Bitmap.blank frame : Bitmap), ?_, rfl⟩
      exact (Service.perform_of_waiting _ _ _ _ _ rfl).trans (Service.finish_of_replied _ _ _ _ _ rfl)
  | put bitmap =>
      refine ⟨(), ?_, trivial⟩
      exact (Service.perform_of_waiting _ _ _ _ _ rfl).trans (Service.finish_of_replied _ _ _ _ _ rfl)
  | clear => exact ⟨(), rfl, trivial⟩
  | trim pressure => exact ⟨(), rfl, trivial⟩
  | rescale multiplier => exact ⟨multiplier.validate, rfl, rfl⟩
  | trimTo target => exact plain.elim
  | usage => exact plain.elim
  | tally => exact plain.elim

theorem PlainCall.obtainable {before : List (Exchange (protocol Bitmap Frame))} {request : Call Bitmap Frame}
    (plain : PlainCall before request) : ObtainablePut before request := by
  cases request with
  | put bitmap => exact plain
  | _ => trivial

/-- A pool of bitmaps has the same reply. -/
theorem InOrder.plain_reply {settings : Settings} (exact : settings.matching = .exact) (source : BitmapSource)
    {before : List (Exchange (protocol Bitmap Frame))} {stock : Stock Bitmap Frame} (inOrder : InOrder before stock)
    {request : Call Bitmap Frame} (plain : PlainCall before request) (memory : φ) :
    PlainReply request ((service settings).perform source.supplier.attendant request stock memory).1 := by
  cases request with
  | lookup care frame =>
      have clean : care ≠ .dirty := by
        rw [show care = .clean from plain]
        exact fun same => nomatch same
      exact (inOrder.perform exact source plain.obtainable memory).2.1 clean
  | rescale multiplier =>
      obtain ⟨follows, _⟩ := inOrder.coherent.perform_follows settings source.supplier (.rescale multiplier) memory
      have replied := Shelf.perform_rescale settings source.supplier stock.shelf memory multiplier
      rw [follows] at replied
      exact replied
  | _ => trivial

def SameUse (settings : Settings) (before : List (Exchange (protocol Bitmap Frame))) (one other : Depot Bitmap Frame) :
    Prop :=
  ∃ stock, one = .pooled settings stock ∧ other = .unpooled ∧ InOrder before stock

theorem same_use_agrees {settings : Settings} (exact : settings.matching = .exact) (source : BitmapSource)
    (before : List (Exchange (protocol Bitmap Frame))) (request : Call Bitmap Frame) (one other : Depot Bitmap Frame)
    (memory : φ) (same : SameUse settings before one other) (plain : PlainCall before request) :
    Service.Alike (P := protocol Bitmap Frame) (SameUse settings) before request
      (Depot.service.perform source.supplier.attendant request one memory)
      (Depot.service.perform source.supplier.attendant request other memory) := by
  obtain ⟨stock, rfl, rfl, inOrder⟩ := same
  obtain ⟨reply, unpooled, isPlain⟩ := unpooled_perform source plain memory
  obtain ⟨inOrder', _, unchanged⟩ := inOrder.perform exact source plain.obtainable memory
  have replies := plain_reply_unique plain (inOrder.plain_reply exact source plain memory) isPlain
  rw [unpooled, depot_perform]
  exact ⟨replies, unchanged, _, rfl, rfl, inOrder'⟩

/-! ## The result -/

theorem buffers_coherent_after (limit : UInt64) (script : Script (protocol Buffer Extent) φ β) (memory : φ) :
    Coherent ((service (Buffer.poolSettings limit)).attend Buffer.supplier.attendant script memory
      (Stock.ofLimit limit)).2.2 := by
  let holds : List (Exchange (protocol Buffer Extent)) → Stock Buffer Extent → Prop := fun _ stock => Coherent stock
  have allowed : Orderly (fun _ _ => True) ((service (Buffer.poolSettings limit)).transcript Buffer.supplier.attendant
      script memory (Stock.ofLimit limit)) := fun _ _ _ _ => trivial
  have preserved : holds _ _ := Service.attend_preserves ?_ script memory _ allowed (of_limit_coherent limit)
  · exact preserved
  · intro before request stock memory coherent _
    exact (coherent.perform_follows (Buffer.poolSettings limit) Buffer.supplier request memory).2

theorem buffer_looks_zeroed {limit : UInt64} {stock : Stock Buffer Extent} (coherent : Coherent stock)
    (request : Call Buffer Extent) (memory : φ) : LooksZeroed request
      ((service (Buffer.poolSettings limit)).perform Buffer.supplier.attendant request stock memory).1 := by
  obtain ⟨follows, _⟩ := coherent.perform_follows (Buffer.poolSettings limit) Buffer.supplier request memory
  obtain ⟨supplied, _⟩ := Shelf.perform_supplied (Buffer.poolSettings limit) Buffer.supplier stock.shelf memory request
  rw [follows] at supplied
  exact looks_zeroed_of_supplied supplied

/-- Whatever was done to a pool of bitmaps before, a clean lookup gives what a new bitmap would be, and so it is with a
pool of buffers up to a greater length. A client that looks bitmaps up, puts them, empties the pool and rescales it has
the same replies from a depot that pools as from one that does not. -/
theorem pooling_is_transparent :
    (∀ (source : BitmapSource) (limit : UInt64) (script : Script (protocol Bitmap Frame) φ β) (memory : φ),
      let pool := service (Bitmap.poolSettings limit)
      let reached := (pool.attend source.supplier.attendant script memory (Stock.ofLimit limit)).2.2
      Orderly ObtainablePut (pool.transcript source.supplier.attendant script memory (Stock.ofLimit limit)) →
      ∀ (frame : Frame) (later : φ),
        (pool.perform source.supplier.attendant (.lookup .clean frame) reached later).1 = Bitmap.blank frame ∧
        (pool.perform source.supplier.attendant (.lookup .exact frame) reached later).1 = Bitmap.blank frame) ∧
    (∀ (limit : UInt64) (script : Script (protocol Buffer Extent) φ β) (memory : φ),
      let pool := service (Buffer.poolSettings limit)
      let reached := (pool.attend Buffer.supplier.attendant script memory (Stock.ofLimit limit)).2.2
      ∀ (extent : Extent) (later : φ),
        (pool.perform Buffer.supplier.attendant (.lookup .exact extent) reached later).1 = Buffer.zeroed extent ∧
        ∃ length, extent.length ≤ length ∧
          (pool.perform Buffer.supplier.attendant (.lookup .clean extent) reached later).1 =
            Buffer.zeroed { extent with length := length }) ∧
    ∀ (settings : Settings) (source : BitmapSource) (script : Script (protocol Bitmap Frame) φ β) (memory : φ),
      let keeping : Depot Bitmap Frame := (Strategy.pooled settings).depot
      let freeing : Depot Bitmap Frame := Strategy.unpooled.depot
      settings.matching = .exact →
      Orderly PlainCall (Depot.service.transcript source.supplier.attendant script memory keeping) →
        Depot.service.transcript source.supplier.attendant script memory keeping =
          Depot.service.transcript source.supplier.attendant script memory freeing ∧
        (Depot.service.attend source.supplier.attendant script memory keeping).1 =
          (Depot.service.attend source.supplier.attendant script memory freeing).1 ∧
        (Depot.service.attend source.supplier.attendant script memory keeping).2.1 =
          (Depot.service.attend source.supplier.attendant script memory freeing).2.1 := by
  refine ⟨?_, ?_, ?_⟩
  · intro source limit script memory pool reached orderly frame later
    obtain ⟨before, inOrder⟩ := in_order_after rfl source limit script memory orderly
    have new : ∀ care, LooksNew (.lookup care frame)
        (pool.perform source.supplier.attendant (.lookup care frame) reached later).1 := by
      intro care
      have allowed : ObtainablePut before (.lookup care frame) := trivial
      exact (inOrder.perform rfl source allowed later).2.1
    exact ⟨new .clean fun same => (nomatch same), new .exact fun same => (nomatch same)⟩
  · intro limit script memory pool reached extent later
    have coherent := buffers_coherent_after limit script memory
    constructor
    · obtain ⟨length, _, same, zeroed⟩ :=
        buffer_looks_zeroed coherent (.lookup .exact extent) later fun same => nomatch same
      rw [same rfl] at zeroed
      exact zeroed
    · obtain ⟨length, longEnough, _, zeroed⟩ :=
        buffer_looks_zeroed coherent (.lookup .clean extent) later fun same => nomatch same
      exact ⟨length, longEnough, zeroed⟩
  · intro settings source script memory keeping freeing exact orderly
    obtain ⟨same, result, memories, _⟩ := Service.attend_agrees (same_use_agrees exact source) script memory keeping
      freeing [] orderly ⟨_, rfl, rfl, of_limit_in_order settings.limit⟩
    exact ⟨same, result, memories⟩

/-- A painted bitmap is put, looked up, painted again and put back: the next lookup gives a new one, and pooling makes
no difference. -/
theorem painted_bitmap_looks_new :
    let frame : Frame := ⟨2, 1, .alpha8⟩
    let source : BitmapSource := .unrestricted
    let script : Script (protocol Bitmap Frame) Unit (Array UInt8) :=
      .call (.put ((Bitmap.blank frame).fill 255)) fun _ =>
      .call (.lookup .clean frame) fun (bitmap : Bitmap) =>
      .call (.put (bitmap.write 1 7).2) fun _ =>
      .done bitmap.pixels
    let pool := service (Bitmap.poolSettings 100)
    let reached := (pool.attend source.supplier.attendant script () (Stock.ofLimit 100)).2.2
    (pool.perform source.supplier.attendant (.lookup .clean frame) reached ()).1 = Bitmap.blank frame ∧
      (Depot.service.attend source.supplier.attendant script () (Strategy.pooled (Bitmap.poolSettings 100)).depot).1 =
        (Depot.service.attend source.supplier.attendant script () Strategy.unpooled.depot).1 := by
  intro frame source script pool reached
  -- Whatever the replies are, the second bitmap that is put was made of the one that was handed out.
  have orderly : ∀ (done : Unit) (bitmap : Bitmap) (again : Unit), Orderly PlainCall
      [⟨.put ((Bitmap.blank frame).fill 255), done⟩, ⟨.lookup .clean frame, bitmap⟩,
        ⟨.put (bitmap.write 1 7).2, again⟩] := by
    intro done bitmap again
    have painted : Bitmap.Obtainable [] ((Bitmap.blank frame).fill 255) := (Bitmap.Obtainable.blank frame).fill 255
    have served : Bitmap.Obtainable [bitmap] (bitmap.write 1 7).2 :=
      (Bitmap.Obtainable.handed List.mem_cons_self).write 1 7
    have one : Orderly PlainCall [⟨.put ((Bitmap.blank frame).fill 255), done⟩] := orderly_nothing.snoc painted
    have two : Orderly PlainCall [⟨.put ((Bitmap.blank frame).fill 255), done⟩, ⟨.lookup .clean frame, bitmap⟩] :=
      one.snoc rfl
    exact two.snoc served
  obtain ⟨bitmaps, _, depots⟩ := pooling_is_transparent (φ := Unit) (β := Array UInt8)
  constructor
  · apply And.left
    apply bitmaps source 100 script () _ frame ()
    intro earlier exchange later parted
    exact (orderly _ _ _ earlier exchange later parted).obtainable
  · exact (depots (Bitmap.poolSettings 100) source script () rfl (orderly _ _ _)).2.1

end Pool

end MemoryBudget
