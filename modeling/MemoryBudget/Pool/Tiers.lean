import MemoryBudget.Pool.Clients

/-!
# Pools behind pools

An upper pool whose client is another pool: what it lacks it takes from the lower pool as it is, and what it does not
keep it puts into the lower pool. Only the lower pool has a client that allocates and frees. Objects go to and fro
between the two pools and the hands of whoever uses the upper one.
-/

set_option autoImplicit false

namespace MemoryBudget

namespace Pool

/-- Allocates and frees for the lower pool, and judges what either pool may keep. It may remember what it likes. -/
structure Keeper (α σ ς : Type) where
  allocate : σ → ς → α × ς
  approves : Tier → α → ς → Bool × ς
  free : α → ς → ς

structure Books (α ς : Type) where
  memory : ς
  allocated : List α
  freed : List α

structure Reserve (α σ ς : Type) [DecidableEq σ] [Hashable σ] where
  stock : Stock α σ
  books : Books α ς
  /-- How often an object was put into the lower pool. -/
  received : Nat

structure Tiering (α σ ς : Type) where
  upper : Settings
  lower : Settings
  keeper : Keeper α σ ς

structure Tiers (α σ ς : Type) [DecidableEq σ] [Hashable σ] where
  upper : Stock α σ
  reserve : Reserve α σ ς
  /-- What the user holds, in the order in which it was obtained. -/
  hands : List α
  /-- The objects that the user made itself and put. -/
  brought : List α
  /-- How often an object was put into the upper pool. -/
  offered : Nat

variable {α σ ς : Type}

def Keeper.answer (keeper : Keeper α σ ς) :
    (query : (protocol α σ).Query) → Books α ς → (protocol α σ).Answer query × Books α ς
  | .make requested, books =>
      let (item, memory) := keeper.allocate requested books.memory
      (item, { books with memory := memory, allocated := books.allocated ++ [item] })
  | .approve item, books =>
      let (approved, memory) := keeper.approves .lower item books.memory
      (approved, { books with memory := memory })
  | .discard item, books =>
      ((), { books with memory := keeper.free item books.memory, freed := books.freed ++ [item] })

inductive Upkeep where
  | trimTo (target : UInt64)
  | clear
  | trim (pressure : Pressure)
  | rescale (multiplier : Multiplier)

def Upkeep.call : Upkeep → Call α σ
  | .trimTo target => .trimTo target
  | .clear => .clear
  | .trim pressure => .trim pressure
  | .rescale multiplier => .rescale multiplier

inductive Tiers.Operation (α σ : Type) where
  /-- A new object is put. -/
  | bring (item : α)
  /-- An object in hand, if there is one at this place, is put. -/
  | giveBack (place : Nat)
  /-- An object in hand is worked on. -/
  | rework (place : Nat) (change : α → α)
  | lookup (care : Care) (requested : σ)
  | upkeep (tier : Tier) (upkeep : Upkeep)

variable [DecidableEq σ] [Hashable σ] [Ord σ] [Recyclable α σ]

namespace Tiering

def callLower (tiering : Tiering α σ ς) (request : Call α σ) (reserve : Reserve α σ ς) :
    (protocol α σ).Reply request × Reserve α σ ς :=
  let (reply, stock, books) :=
    (service tiering.lower).carryOut (.aloof tiering.keeper.answer) request reserve.stock reserve.books
  (reply, { reserve with stock := stock, books := books })

/-- What the upper pool asks of the lower one; whether an object may be kept is for the keeper to say. -/
def answer (tiering : Tiering α σ ς) :
    (query : (protocol α σ).Query) → Reserve α σ ς → (protocol α σ).Answer query × Reserve α σ ς
  | .make requested, reserve => tiering.callLower (.lookup .dirty requested) reserve
  | .approve item, reserve =>
      let (approved, memory) := tiering.keeper.approves .upper item reserve.books.memory
      (approved, { reserve with books := { reserve.books with memory := memory } })
  | .discard item, reserve =>
      let ((), reserve) := tiering.callLower (.put item) reserve
      ((), { reserve with received := reserve.received + 1 })

def tiers (tiering : Tiering α σ ς) (memory : ς) : Tiers α σ ς :=
  { upper := Stock.ofLimit tiering.upper.limit
    reserve :=
      { stock := Stock.ofLimit tiering.lower.limit
        books := { memory := memory, allocated := [], freed := [] }
        received := 0 }
    hands := []
    brought := []
    offered := 0 }

end Tiering

namespace Tiers

def call (tiering : Tiering α σ ς) (tiers : Tiers α σ ς) (request : Call α σ) :
    (protocol α σ).Reply request × Tiers α σ ς :=
  let (reply, upper, reserve) :=
    (service tiering.upper).carryOut (.aloof tiering.answer) request tiers.upper tiers.reserve
  (reply, { tiers with upper := upper, reserve := reserve })

def put (tiering : Tiering α σ ς) (tiers : Tiers α σ ς) (item : α) : Tiers α σ ς :=
  ({ tiers with offered := tiers.offered + 1 }.call tiering (.put item)).2

def perform (tiering : Tiering α σ ς) (tiers : Tiers α σ ς) : Operation α σ → Tiers α σ ς
  | .bring item => { tiers with brought := tiers.brought ++ [item] }.put tiering item
  | .giveBack place =>
      match tiers.hands[place]? with
      | none => tiers
      | some item => { tiers with hands := tiers.hands.eraseIdx place }.put tiering item
  | .rework place change => { tiers with hands := tiers.hands.modify place change }
  | .lookup care requested =>
      let (item, tiers) := tiers.call tiering (.lookup care requested)
      let obtained : α := item
      { tiers with hands := tiers.hands ++ [obtained] }
  | .upkeep .upper upkeep => (tiers.call tiering upkeep.call).2
  | .upkeep .lower upkeep => { tiers with reserve := (tiering.callLower upkeep.call tiers.reserve).2 }

def run (tiering : Tiering α σ ς) (tiers : Tiers α σ ς) : List (Operation α σ) → Tiers α σ ς
  | [] => tiers
  | operation :: later => (tiers.perform tiering operation).run tiering later

end Tiers

end Pool

end MemoryBudget
