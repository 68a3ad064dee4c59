/-!
# Allocations and handles

A value is allocated once and reached through any number of handles. Each allocation counts the handles that are
alive: one more when a handle is copied, one less when one is dropped. A handle also carries the size at which
the value was measured, and two handles are equal when they reach the same allocation, whatever sizes they carry.
-/

set_option autoImplicit false

namespace MemoryBudget

namespace Shared

structure Handle where
  allocation : Nat
  size : UInt64

namespace Handle

def sameAllocation (one other : Handle) : Bool :=
  one.allocation == other.allocation

/-- What a cache compares when a handle is put where another one is. -/
instance : BEq Handle := ⟨sameAllocation⟩

end Handle

structure Allocation (ν : Type) where
  value : ν
  /-- How many handles to it are alive. -/
  handles : Nat

/-- Every allocation ever made, by number. One without handles is out of reach. -/
structure Allocations (ν : Type) where
  cells : Array (Allocation ν)

namespace Allocations

variable {ν : Type}

def empty : Allocations ν := ⟨#[]⟩

def allocate (allocations : Allocations ν) (value : ν) (size : UInt64) : Handle × Allocations ν :=
  (⟨allocations.cells.size, size⟩, ⟨allocations.cells.push ⟨value, 1⟩⟩)

def handles (allocations : Allocations ν) (handle : Handle) : Nat :=
  (allocations.cells[handle.allocation]?.map (·.handles)).getD 0

def value? (allocations : Allocations ν) (handle : Handle) : Option ν :=
  allocations.cells[handle.allocation]?.map (·.value)

def recount (allocations : Allocations ν) (handle : Handle) (change : Nat → Nat) : Allocations ν :=
  ⟨allocations.cells.modify handle.allocation fun cell => { cell with handles := change cell.handles }⟩

def copy (allocations : Allocations ν) (handle : Handle) : Allocations ν :=
  allocations.recount handle (· + 1)

def drop (allocations : Allocations ν) (handle : Handle) : Allocations ν :=
  allocations.recount handle (· - 1)

/-- Gives up a handle; whoever gives up the last one receives the value. -/
def reclaim (allocations : Allocations ν) (handle : Handle) : Option ν × Allocations ν :=
  (if allocations.handles handle = 1 then allocations.value? handle else none, allocations.drop handle)

end Allocations

end Shared

end MemoryBudget
