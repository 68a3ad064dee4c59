import MemoryBudget.Pool.Recyclable

/-!
# Buffers

Working space of bytes or of integers. A longer buffer than was asked for will do, so a pool of buffers takes
the shortest one that is long enough; but while more than half of the budget is in use, a buffer of more than
eight times the length is kept for a larger request.
-/

set_option autoImplicit false

namespace MemoryBudget

inductive Element where
  | byte
  | int
  deriving DecidableEq, Hashable

namespace Element

def byteSize : Element → Nat
  | .byte => 1
  | .int => 4

def name : Element → String
  | .byte => "Bytes"
  | .int => "Ints"

def ofName? (name : String) : Option Element :=
  [Element.byte, Element.int].find? (·.name == name)

def rank : Element → Nat
  | .byte => 0
  | .int => 1

instance : Ord Element := ⟨fun one other => compare one.rank other.rank⟩

end Element

structure Extent where
  element : Element
  length : Nat
  deriving DecidableEq, Hashable

/-- By element first, so that no search for a longer buffer reaches the other kind. -/
instance : Ord Extent where
  compare one other := (compare one.element other.element).then (compare one.length other.length)

inductive Buffer where
  | bytes (content : Array UInt8)
  | ints (content : Array Int32)
  deriving DecidableEq

namespace Buffer

def zeroed (extent : Extent) : Buffer :=
  match extent.element with
  | .byte => .bytes (Array.replicate extent.length 0)
  | .int => .ints (Array.replicate extent.length 0)

def element : Buffer → Element
  | .bytes _ => .byte
  | .ints _ => .int

def length : Buffer → Nat
  | .bytes content => content.size
  | .ints content => content.size

def isEmpty (buffer : Buffer) : Bool := buffer.length == 0

def extent (buffer : Buffer) : Extent :=
  { element := buffer.element, length := buffer.length }

def bytes? : Buffer → Option (Array UInt8)
  | .bytes content => some content
  | .ints _ => none

def ints? : Buffer → Option (Array Int32)
  | .bytes _ => none
  | .ints content => some content

/-- Sets every element to a number, of which the low bits are kept. -/
def fill (buffer : Buffer) (value : Int) : Buffer :=
  match buffer with
  | .bytes content => .bytes (Array.replicate content.size (UInt8.ofInt value))
  | .ints content => .ints (Array.replicate content.size (Int32.ofInt value))

def writeByte? (buffer : Buffer) (index : Nat) (value : UInt8) : Option (Bool × Buffer) :=
  buffer.bytes?.map fun content => (index < content.size, .bytes (content.setIfInBounds index value))

def writeInt? (buffer : Buffer) (index : Nat) (value : Int32) : Option (Bool × Buffer) :=
  buffer.ints?.map fun content => (index < content.size, .ints (content.setIfInBounds index value))

def numbers : Buffer → List Int
  | .bytes content => content.toList.map fun byte => (byte.toNat : Int)
  | .ints content => content.toList.map Int32.toInt

def describe (buffer : Buffer) : String :=
  buffer.element.name ++ "([" ++ ", ".intercalate (buffer.numbers.map toString) ++ "])"

/-- How many times longer than requested a buffer may be while space is short. -/
def longestMultiple : Nat := 8

instance : Recyclable Buffer Extent where
  shape := extent
  byteSize buffer := UInt64.ofNat (buffer.length * buffer.element.byteSize)
  wipe buffer := buffer.fill 0
  reusable _ := true
  serves requested candidate roomy :=
    candidate.element == requested.element && decide (requested.length ≤ candidate.length) &&
      (roomy || decide (candidate.length ≤ longestMultiple * requested.length))

def supplier : Pool.Supplier Buffer Extent where
  allocate := zeroed
  approves _ := true

/-- A longer buffer will do, but no buffer is kept that is larger than half of the limit. -/
def poolSettings (limit : UInt64) : Pool.Settings :=
  { limit := limit, largestItem := some (limit / 2), matching := .atLeast, clearsAt := Pressure.background }

/-- Four mebibytes. -/
def defaultPoolLimit : UInt64 := 4194304

/-- What decoders usually ask for: sixty-four kibibytes. -/
def standardByteSize : Nat := 65536

end Buffer

end MemoryBudget
