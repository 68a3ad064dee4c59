import MemoryBudget.Pool.Depot

/-!
# Clients of pools

A supplier alone allocates what a pool lacks and frees what it does not keep. A workshop around a supplier also
writes down what it is asked, may refuse shapes, may take from a second pool and give to it, and may put a smaller
piece of what it discards back into the pool that discarded it.
-/

set_option autoImplicit false

namespace MemoryBudget

namespace Pool

variable {α σ φ ς : Type}

def Supplier.attendant (supplier : Supplier α σ) : Attendant (protocol α σ) ς φ :=
  .aloof fun
    | .make requested, memory => (supplier.allocate requested, memory)
    | .approve item, memory => (supplier.approves item, memory)
    | .discard _, memory => ((), memory)

def Supplier.client (supplier : Supplier α σ) : Client (protocol α σ) φ
  | .make requested => pure (supplier.allocate requested)
  | .approve item => pure (supplier.approves item)
  | .discard _ => pure ()

inductive Tier where
  | upper
  | lower
  deriving DecidableEq

inductive Deed (α σ : Type) where
  | made (tier : Tier) (requested : σ)
  | vetted (tier : Tier) (shape : σ) (accepted : Bool)
  /-- With what could be seen of the pool at that moment, if it could be seen. -/
  | discarded (tier : Tier) (item : α) (usage : Option Usage)

structure SecondPool (α σ : Type) [DecidableEq σ] [Hashable σ] where
  settings : Settings
  stock : Stock α σ

def SecondPool.ofSettings {α σ : Type} [DecidableEq σ] [Hashable σ] (settings : Settings) :
    SecondPool α σ :=
  { settings := settings, stock := Stock.ofLimit settings.limit }

structure Workshop (α σ : Type) [DecidableEq σ] [Hashable σ] where
  deeds : Array (Deed α σ)
  second : Option (SecondPool α σ)

structure Practice (α σ : Type) where
  supplier : Supplier α σ
  refused : List σ
  /-- What is put back of a discarded object when there is no second pool. -/
  remake : α → Option α
  /-- Whether the pool that discards can be called from inside. -/
  inReach : Bool

variable [DecidableEq σ] [Hashable σ] [Ord σ] [Recyclable α σ]

def Supplier.recording (supplier : Supplier α σ) : Attendant (protocol α σ) ς (Array (Deed α σ)) :=
  .aloof fun
    | .make requested, deeds => (supplier.allocate requested, deeds.push (.made .lower requested))
    | .approve item, deeds =>
        let accepted := supplier.approves item
        (accepted, deeds.push (.vetted .lower (Recyclable.shape item) accepted))
    | .discard item, deeds => ((), deeds.push (.discarded .lower item none))

namespace Workshop

def write (workshop : Workshop α σ) (deed : Deed α σ) : Workshop α σ :=
  { workshop with deeds := workshop.deeds.push deed }

def delegate (workshop : Workshop α σ) (second : SecondPool α σ) (supplier : Supplier α σ)
    (request : Call α σ) : (protocol α σ).Reply request × Workshop α σ :=
  let (reply, stock, deeds) :=
    (service second.settings).perform supplier.recording request second.stock workshop.deeds
  (reply, { deeds := deeds, second := some { second with stock := stock } })

def provide (workshop : Workshop α σ) (supplier : Supplier α σ) (requested : σ) : α × Workshop α σ :=
  match workshop.second with
  | some second => workshop.delegate second supplier (.lookup .dirty requested)
  | none => (supplier.allocate requested, workshop)

end Workshop

namespace Practice

def reach (request : Call α σ) :
    Script (protocol α σ) (Workshop α σ) ((protocol α σ).Reply request) :=
  Script.ask (P := protocol α σ) request

def make (practice : Practice α σ) (requested : σ) : Script (protocol α σ) (Workshop α σ) α := do
  Script.note (·.write (.made .upper requested))
  let (item, workshop) ← Script.look (·.provide practice.supplier requested)
  Script.note fun _ => workshop
  return item

def approves (practice : Practice α σ) (item : α) : Script (protocol α σ) (Workshop α σ) Bool := do
  let shape := Recyclable.shape item
  let accepted := practice.supplier.approves item && !practice.refused.contains shape
  Script.note (·.write (.vetted .upper shape accepted))
  return accepted

def discard (practice : Practice α σ) (item : α) : Script (protocol α σ) (Workshop α σ) Unit := do
  let usage ← if practice.inReach then some <$> reach .usage else pure none
  Script.note (·.write (.discarded .upper item usage))
  let second ← Script.look (·.second)
  match second, practice.inReach, practice.remake item with
  | some second, _, _ => Script.note fun workshop => (workshop.delegate second practice.supplier (.put item)).2
  | none, true, some remade => reach (.put remade)
  | _, _, _ => pure ()

def client (practice : Practice α σ) : Client (protocol α σ) (Workshop α σ)
  | .make requested => practice.make requested
  | .approve item => practice.approves item
  | .discard item => practice.discard item

end Practice

end Pool

end MemoryBudget
