/-!
# Buckets by shape

The serial numbers of the resident objects of each shape. Buckets are kept in ascending order of shape, so that
the least shape at or above a request is the first one that is not below it; a bucket that empties is gone.
-/

set_option autoImplicit false

namespace MemoryBudget

namespace Pool

structure Bucket (σ : Type) where
  shape : σ
  /-- Newest first. -/
  serials : List Nat

/-- In ascending order of shape. -/
structure Buckets (σ : Type) where
  toList : List (Bucket σ)

namespace Buckets

variable {σ : Type} [Ord σ]

def empty : Buckets σ := ⟨[]⟩

def find? (buckets : Buckets σ) (shape : σ) : Option (Bucket σ) :=
  buckets.toList.find? fun bucket => compare bucket.shape shape == .eq

def leastFrom? (buckets : Buckets σ) (requested : σ) : Option σ :=
  (buckets.toList.find? fun bucket => compare bucket.shape requested != .lt).map (·.shape)

def pushIn (shape : σ) (serial : Nat) : List (Bucket σ) → List (Bucket σ)
  | [] => [⟨shape, [serial]⟩]
  | bucket :: rest =>
      match compare shape bucket.shape with
      | .lt => ⟨shape, [serial]⟩ :: bucket :: rest
      | .eq => { bucket with serials := serial :: bucket.serials } :: rest
      | .gt => bucket :: pushIn shape serial rest

def push (buckets : Buckets σ) (shape : σ) (serial : Nat) : Buckets σ :=
  ⟨pushIn shape serial buckets.toList⟩

def amend (buckets : Buckets σ) (shape : σ) (change : List Nat → List Nat) : Buckets σ :=
  ⟨buckets.toList.filterMap fun bucket =>
    if compare bucket.shape shape == .eq then
      match change bucket.serials with
      | [] => none
      | serials => some { bucket with serials := serials }
    else
      some bucket⟩

def pop? (buckets : Buckets σ) (shape : σ) : Option (Nat × Buckets σ) :=
  match buckets.find? shape with
  | some ⟨_, newest :: _⟩ => some (newest, buckets.amend shape List.tail)
  | _ => none

def erase (buckets : Buckets σ) (shape : σ) (serial : Nat) : Buckets σ :=
  buckets.amend shape (·.erase serial)

end Buckets

end Pool

end MemoryBudget
