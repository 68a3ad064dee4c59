import MemoryBudget.Pool.Recyclable

/-!
# Blocks

Objects that only say what a pool wants to know: a shape, a size that need not follow from it, and whether they
may be used again. A tag stands for their content.
-/

set_option autoImplicit false

namespace MemoryBudget

inductive BlockFit where
  | sameShape
  /-- Any shape, as long as the pool is roomy. -/
  | anyIfRoomy
  deriving DecidableEq

structure Block (fit : BlockFit) where
  shape : UInt64
  bytes : UInt64
  tag : Int
  reusable : Bool
  deriving DecidableEq

namespace Block

variable {fit : BlockFit}

/-- A new block is as large as its shape says, and its tag is minus one. -/
def fresh (shape : UInt64) : Block fit :=
  { shape := shape, bytes := shape, tag := -1, reusable := true }

/-- The first half of a block, as long as there is anything in it, with a tag that tells it from the whole. -/
def firstHalf? (block : Block fit) : Option (Block fit) :=
  let bytes := block.bytes / 2
  if 0 < bytes then some { block with bytes := bytes, tag := block.tag + 1000 } else none

instance : Recyclable (Block fit) UInt64 where
  shape block := block.shape
  byteSize block := block.bytes
  wipe block := { block with tag := 0 }
  reusable block := block.reusable
  serves requested candidate roomy :=
    match fit with
    | .sameShape => requested == candidate
    | .anyIfRoomy => roomy || requested == candidate

def supplier : Pool.Supplier (Block fit) UInt64 where
  allocate := fresh
  approves _ := true

end Block

end MemoryBudget
