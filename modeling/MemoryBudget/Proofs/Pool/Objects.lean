import MemoryBudget.Bitmap
import MemoryBudget.Buffer
import Mathlib.Tactic.Common

/-!
# Laws of bitmaps and buffers

The orders of their shapes are linear, as a pool requires, and objects that are wiped are new ones. A client makes
bitmaps out of new ones and of those that it was handed; all of them have as many bytes as their frame says.
-/

set_option autoImplicit false

namespace MemoryBudget

/-! ## Shapes -/

theorem Bitmap.Format.rank_injective {one other : Bitmap.Format} (same : one.rank = other.rank) : one = other := by
  cases one <;> cases other <;> first | rfl | cases same

theorem Element.rank_injective {one other : Element} (same : one.rank = other.rank) : one = other := by
  cases one <;> cases other <;> first | rfl | cases same

instance : Std.TransOrd Bitmap.Format :=
  inferInstanceAs (Std.TransCmp (compareOn Bitmap.Format.rank))

instance : Std.LawfulEqOrd Bitmap.Format where
  eq_of_compare {one other} same := by
    have ranks : compare one.rank other.rank = .eq := same
    exact Bitmap.Format.rank_injective (Std.LawfulEqOrd.eq_of_compare ranks)

instance : Std.TransOrd Element :=
  inferInstanceAs (Std.TransCmp (compareOn Element.rank))

instance : Std.LawfulEqOrd Element where
  eq_of_compare {one other} same := by
    have ranks : compare one.rank other.rank = .eq := same
    exact Element.rank_injective (Std.LawfulEqOrd.eq_of_compare ranks)

instance : Std.TransOrd Frame :=
  inferInstanceAs (Std.TransCmp
    (compareLex (compareOn Frame.width) (compareLex (compareOn Frame.height) (compareOn Frame.format))))

instance : Std.LawfulEqOrd Frame where
  eq_of_compare {one other} same := by
    obtain ⟨width, rest⟩ := Ordering.then_eq_eq.mp same
    obtain ⟨height, format⟩ := Ordering.then_eq_eq.mp rest
    have sameWidth := Std.LawfulEqOrd.eq_of_compare width
    have sameHeight := Std.LawfulEqOrd.eq_of_compare height
    have sameFormat := Std.LawfulEqOrd.eq_of_compare format
    cases one
    cases other
    simp_all

instance : Std.TransOrd Extent :=
  inferInstanceAs (Std.TransCmp (compareLex (compareOn Extent.element) (compareOn Extent.length)))

instance : Std.LawfulEqOrd Extent where
  eq_of_compare {one other} same := by
    obtain ⟨element, length⟩ := Ordering.then_eq_eq.mp same
    have sameElement := Std.LawfulEqOrd.eq_of_compare element
    have sameLength := Std.LawfulEqOrd.eq_of_compare length
    cases one
    cases other
    simp_all

/-! ## Bitmaps and buffers -/

namespace Bitmap

def Sound (bitmap : Bitmap) : Prop :=
  bitmap.pixels.size = bitmap.frame.byteSize.toNat

/-- What a client can make out of bitmaps that it was handed before: new bitmaps, and changes to any of these. -/
inductive Obtainable (handed : List Bitmap) : Bitmap → Prop where
  | handed {bitmap : Bitmap} (member : bitmap ∈ handed) : Obtainable handed bitmap
  | blank (frame : Frame) : Obtainable handed (blank frame)
  | write {bitmap : Bitmap} (obtainable : Obtainable handed bitmap) (index : Nat) (value : UInt8) :
      Obtainable handed (bitmap.write index value).2
  | fill {bitmap : Bitmap} (obtainable : Obtainable handed bitmap) (value : UInt8) :
      Obtainable handed (bitmap.fill value)
  | freeze {bitmap : Bitmap} (obtainable : Obtainable handed bitmap) : Obtainable handed bitmap.freeze

theorem blank_sound (frame : Frame) : (blank frame).Sound := by
  simp [Sound, blank]

theorem Sound.fill {bitmap : Bitmap} (sound : bitmap.Sound) (value : UInt8) : (bitmap.fill value).Sound := by
  simpa [Sound, Bitmap.fill] using sound

theorem Sound.write {bitmap : Bitmap} (sound : bitmap.Sound) (index : Nat) (value : UInt8) :
    (bitmap.write index value).2.Sound := by
  simpa [Sound, Bitmap.write] using sound

theorem Sound.freeze {bitmap : Bitmap} (sound : bitmap.Sound) : bitmap.freeze.Sound := sound

theorem Obtainable.sound {handed : List Bitmap} (allSound : ∀ bitmap ∈ handed, bitmap.Sound) {bitmap : Bitmap}
    (obtainable : Obtainable handed bitmap) : bitmap.Sound := by
  induction obtainable with
  | handed member => exact allSound _ member
  | blank frame => exact blank_sound frame
  | write obtainable index value ih => exact ih.write index value
  | fill obtainable value ih => exact ih.fill value
  | freeze obtainable ih => exact ih.freeze

/-- A used bitmap that is wiped is a new one. -/
theorem Sound.wipe_eq {bitmap : Bitmap} (sound : bitmap.Sound) (writable : bitmap.writable = true) :
    Recyclable.wipe bitmap = blank bitmap.frame := by
  show bitmap.fill 0 = blank bitmap.frame
  unfold Bitmap.fill blank
  rw [← show bitmap.pixels.size = bitmap.frame.byteSize.toNat from sound, ← writable]

end Bitmap

namespace Buffer

/-- A buffer that is wiped is a new one of its extent. -/
theorem wipe_eq (buffer : Buffer) : Recyclable.wipe buffer = zeroed buffer.extent := by
  cases buffer <;> rfl

end Buffer

end MemoryBudget
