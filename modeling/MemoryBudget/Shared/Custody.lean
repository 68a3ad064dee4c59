import MemoryBudget.Shared.Allocations

/-!
# Custody

The handles that clients own, as opposed to those inside a cache: some have names, some are put aside, and some
are in hand, which is where a handle is on its way from one place to the next. Handles only ever move or are
copied and dropped by count, so that no client can make one up.
-/

set_option autoImplicit false

namespace MemoryBudget

namespace Shared

structure Custody where
  named : List (String × Handle)
  aside : List Handle
  /-- The handle that came to hand last is the first. -/
  inHand : List Handle

namespace Custody

def empty : Custody := { named := [], aside := [], inHand := [] }

def named? (custody : Custody) (name : String) : Option Handle :=
  custody.named.lookup name

def grasp (custody : Custody) (handle : Handle) : Custody :=
  { custody with inHand := handle :: custody.inHand }

/-- Lets go of the handle that came to hand last. -/
def letGo? (custody : Custody) : Option (Handle × Custody) :=
  match custody.inHand with
  | [] => none
  | handle :: rest => some (handle, { custody with inHand := rest })

def unname? (custody : Custody) (name : String) : Option (Handle × Custody) :=
  (custody.named? name).map fun handle =>
    (handle, { custody with named := custody.named.eraseP (·.1 == name) })

def assign (custody : Custody) (name : String) (handle : Handle) : Custody :=
  { custody with named := (name, handle) :: custody.named }

def putAside (custody : Custody) (handle : Handle) : Custody :=
  { custody with aside := handle :: custody.aside }

def namesOf (custody : Custody) (handle : Handle) : List String :=
  (custody.named.filter (·.2.sameAllocation handle)).map (·.1)

def handles (custody : Custody) : List Handle :=
  custody.named.map (·.2) ++ custody.aside ++ custody.inHand

end Custody

end Shared

end MemoryBudget
