import MemoryBudget.Shared.Basic
import MemoryBudget.Text.Quoted

/-!
# Clients of caches of shared values

Errands carry a handle from one place to another and show what passes by. Listeners write down what is reported
to them and then drop it, put it aside, or put it into the cache again under a key of their own.
-/

set_option autoImplicit false

namespace MemoryBudget

namespace Shared

variable {κ ν ℓ φ : Type}

def request (call : Call κ ν ℓ) : Script (protocol κ ν ℓ) φ ((protocol κ ν ℓ).Reply call) :=
  Script.ask (P := protocol κ ν ℓ) call

/-! ## Errands -/

def introduce (name : String) (value : ν) (size : UInt64) : Script (protocol κ ν ℓ) φ Unit := do
  request (.make value size)
  let _ ← request (.name name)

def rename (name of : String) (size : UInt64) : Script (protocol κ ν ℓ) φ Unit := do
  let found : Bool ← request (.copy of (some size))
  if found then
    let _ ← request (.name name)

def discard (name : String) : Script (protocol κ ν ℓ) φ Bool := do
  let found : Bool ← request (.take name)
  if found then request .drop else return false

def show? (arrived : Bool) (name : Option String) : Script (protocol κ ν ℓ) φ (Option (View ν)) := do
  if arrived then
    let view ← request .inspect
    let _ ← match name with
      | some name => request (.name name)
      | none => request .drop
    return view
  else
    return none

def deposit (key : κ) (name : String) (keep : Bool) : Script (protocol κ ν ℓ) φ (Option (View ν)) := do
  let found : Bool ← if keep then request (.copy name none) else request (.take name)
  if found then
    show? (← request (.put key)) none
  else
    return none

def fetch (key : κ) (name : Option String) : Script (protocol κ ν ℓ) φ (Option (View ν)) := do
  show? (← request (.get key)) name

def withdraw (key : κ) (name : Option String) : Script (protocol κ ν ℓ) φ (Option (View ν)) := do
  show? (← request (.remove key)) name

/-! ## Listeners -/

inductive Habit where
  | drop
  | putAside
  | putAgain
  deriving DecidableEq

structure Listener where
  name : String
  habit : Habit

/-- What a listener wrote down: the handle as it was, and the cache as it was, when the report came. -/
structure Record (ν : Type) where
  listener : String
  view : View ν
  usage : Usage

structure Notebook (ν : Type) where
  records : Array (Record ν)
  again : Nat

namespace Notebook

def empty : Notebook ν := { records := #[], again := 0 }

def record (notebook : Notebook ν) (listener : Listener) (view : View ν) (usage : Usage) : Notebook ν :=
  { notebook with records := notebook.records.push ⟨listener.name, view, usage⟩ }

def turnPage (notebook : Notebook ν) : Notebook ν :=
  { notebook with records := #[] }

end Notebook

/-- Puts the reported handle into the cache under a key made from the number of times left, as long as there are
any. -/
def putAgain (keyOf : Nat → κ) : Script (protocol κ ν Listener) (Notebook ν) Unit := do
  match ← Script.look (·.again) with
  | 0 => let _ ← request .drop
  | left + 1 =>
      Script.note fun notebook => { notebook with again := left }
      let replaced : Bool ← request (.put (keyOf (left + 1)))
      if replaced then
        let _ ← request .drop

def listening (keyOf : Nat → κ) : Client (protocol κ ν Listener) (Notebook ν)
  | .removed listener _ => do
      let view ← request .inspect
      let usage ← request .usage
      Script.note fun notebook => view.elim notebook (notebook.record listener · usage)
      match listener.habit with
      | .drop => let _ ← request .drop
      | .putAside => let _ ← request .putAside
      | .putAgain => putAgain keyOf

/-! ## Text -/

def describe (view : View String) : String :=
  "Resource \x7b value: " ++ Text.quote view.value ++ ", size: " ++ toString view.size.toNat ++ " \x7d"

end Shared

end MemoryBudget
