import MemoryBudget.Pool.Recyclable

/-!
# Bitmaps

Images of a width, a height and a pixel format. They are interchangeable only if all three agree, so a pool of
bitmaps matches exactly. A frozen bitmap is never used again.
-/

set_option autoImplicit false

namespace MemoryBudget

inductive Bitmap.Format where
  | alpha8
  | rgb565
  | argb4444
  | argb8888
  | rgbaF16
  deriving DecidableEq, Hashable

namespace Bitmap.Format

/-- In ascending order. -/
def all : List Bitmap.Format := [.alpha8, .rgb565, .argb4444, .argb8888, .rgbaF16]

instance : Inhabited Bitmap.Format := ⟨.argb8888⟩

def bytesPerPixel : Bitmap.Format → Nat
  | .alpha8 => 1
  | .rgb565 | .argb4444 => 2
  | .argb8888 => 4
  | .rgbaF16 => 8

def name : Bitmap.Format → String
  | .alpha8 => "Alpha8"
  | .rgb565 => "Rgb565"
  | .argb4444 => "Argb4444"
  | .argb8888 => "Argb8888"
  | .rgbaF16 => "RgbaF16"

def ofName? (name : String) : Option Bitmap.Format :=
  all.find? (·.name == name)

def rank : Bitmap.Format → Nat
  | .alpha8 => 0
  | .rgb565 => 1
  | .argb4444 => 2
  | .argb8888 => 3
  | .rgbaF16 => 4

instance : Ord Bitmap.Format := ⟨fun one other => compare one.rank other.rank⟩

end Bitmap.Format

structure Frame where
  width : UInt32
  height : UInt32
  format : Bitmap.Format
  deriving DecidableEq, Hashable

namespace Frame

/-- By width, then by height, then by format. -/
instance : Ord Frame where
  compare one other :=
    (compare one.width other.width).then
      ((compare one.height other.height).then (compare one.format other.format))

def pixelBytes (frame : Frame) : Nat :=
  frame.width.toNat * frame.height.toNat * frame.format.bytesPerPixel

def byteSize (frame : Frame) : UInt64 :=
  UInt64.ofNat frame.pixelBytes

end Frame

structure Bitmap where
  frame : Frame
  pixels : Array UInt8
  writable : Bool
  deriving DecidableEq

namespace Bitmap

def blank (frame : Frame) : Bitmap :=
  { frame := frame, pixels := Array.replicate frame.byteSize.toNat 0, writable := true }

def fill (bitmap : Bitmap) (value : UInt8) : Bitmap :=
  { bitmap with pixels := Array.replicate bitmap.pixels.size value }

def write (bitmap : Bitmap) (index : Nat) (value : UInt8) : Bool × Bitmap :=
  (index < bitmap.pixels.size, { bitmap with pixels := bitmap.pixels.setIfInBounds index value })

def freeze (bitmap : Bitmap) : Bitmap :=
  { bitmap with writable := false }

def describe (bitmap : Bitmap) : String :=
  let size := toString bitmap.frame.width.toNat ++ "x" ++ toString bitmap.frame.height.toNat
  let state := if bitmap.writable then "" else " immutable"
  "Bitmap(" ++ size ++ " " ++ bitmap.frame.format.name ++ state ++ ")"

instance : Recyclable Bitmap Frame where
  shape bitmap := bitmap.frame
  byteSize bitmap := UInt64.ofNat bitmap.pixels.size
  wipe bitmap := bitmap.fill 0
  reusable bitmap := bitmap.writable
  serves requested candidate _ := requested == candidate

end Bitmap

/-- Where bitmaps come from, and the formats of those that may be kept; no list means all of them. -/
structure BitmapSource where
  formats : Option (List Bitmap.Format)

namespace BitmapSource

def unrestricted : BitmapSource := ⟨none⟩

/-- Keeps only bitmaps in one of the formats, in ascending order and each named once. -/
def restricted (formats : List Bitmap.Format) : BitmapSource :=
  ⟨some (Bitmap.Format.all.filter formats.contains)⟩

def permits (source : BitmapSource) (format : Bitmap.Format) : Bool :=
  source.formats.all (·.contains format)

def describe (source : BitmapSource) : String :=
  let formats :=
    match source.formats with
    | none => "None"
    | some formats => "Some(\x7b" ++ ", ".intercalate (formats.map Bitmap.Format.name) ++ "\x7d)"
  "BitmapAllocator \x7b allowed_formats: " ++ formats ++ " \x7d"

def supplier (source : BitmapSource) : Pool.Supplier Bitmap Frame where
  allocate := Bitmap.blank
  approves bitmap := source.permits bitmap.frame.format

end BitmapSource

namespace Bitmap

/-- Only the same frame will do, any size is kept, and nothing stays once the application is hidden. -/
def poolSettings (limit : UInt64) : Pool.Settings :=
  { limit := limit, largestItem := none, matching := .exact, clearsAt := Pressure.hidden }

/-- Room for four frames of 1920 by 1080 pixels at four bytes a pixel. -/
def defaultPoolLimit : UInt64 := 33177600

end Bitmap

end MemoryBudget
