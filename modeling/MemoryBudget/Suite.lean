import MemoryBudget.Shared.Clients
import MemoryBudget.Pool.Clients
import MemoryBudget.Bitmap
import MemoryBudget.Buffer

/-!
# Memory suites

A cache of shared bitmaps, a pool of bitmaps and a pool of buffers, which a host sizes, trims and clears together.
The cache goes first, so that what it lets go of into the bitmap pool is trimmed or cleared in the same call.
-/

set_option autoImplicit false

namespace MemoryBudget

namespace Suite

structure Settings where
  resultLimit : UInt64
  bitmapLimit : UInt64
  bufferLimit : UInt64
  poolsBitmaps : Bool
  deriving DecidableEq

structure Draft where
  resultLimit : Option UInt64
  bitmapLimit : Option UInt64
  bufferLimit : Option UInt64
  poolsBitmaps : Option Bool

/-- Four mebibytes. -/
def defaultResultLimit : UInt64 := 4194304

/-- Everything that is left open has a default. -/
def Draft.settle (draft : Draft) : Settings :=
  { resultLimit := draft.resultLimit.getD defaultResultLimit
    bitmapLimit := draft.bitmapLimit.getD Bitmap.defaultPoolLimit
    bufferLimit := draft.bufferLimit.getD Buffer.defaultPoolLimit
    poolsBitmaps := draft.poolsBitmaps.getD true }

/-- Without room for bitmaps there is no point in pooling them. -/
def Settings.bitmapStrategy (settings : Settings) : Pool.Strategy :=
  if settings.poolsBitmaps && 0 < settings.bitmapLimit then
    .pooled (Bitmap.poolSettings settings.bitmapLimit)
  else
    .unpooled

inductive Listener where
  /-- It is written down and dropped. -/
  | recorder
  /-- It goes to the bitmap pool, unless another handle to it is alive. -/
  | recycler
  deriving DecidableEq

/-- What a listener can reach from inside a call on the cache. -/
structure Surroundings where
  bitmaps : Pool.Depot Bitmap Frame
  removed : Array (Shared.View Bitmap)

namespace Surroundings

def callBitmaps (surroundings : Surroundings) (request : Pool.Call Bitmap Frame) :
    (Pool.protocol Bitmap Frame).Reply request × Surroundings :=
  let attendant := BitmapSource.unrestricted.supplier.attendant
  let (reply, bitmaps, _) := Pool.Depot.service.perform attendant request surroundings.bitmaps ()
  (reply, { surroundings with bitmaps := bitmaps })

def receive (surroundings : Surroundings) (bitmap : Bitmap) : Surroundings :=
  (surroundings.callBitmaps (.put bitmap)).2

def write (surroundings : Surroundings) (view : Option (Shared.View Bitmap)) : Surroundings :=
  { surroundings with removed := surroundings.removed ++ view.toArray }

end Surroundings

def attendant {κ : Type} [BEq κ] [Hashable κ] :
    Attendant (Shared.protocol κ Bitmap Listener) (Shared.State κ Bitmap Listener) Surroundings where
  answer
    | .removed .recorder handle, state, surroundings =>
        ((), state.dropHand.2, surroundings.write (state.view? handle))
    | .removed .recycler _, state, surroundings =>
        let (bitmap, state) := state.reclaimHand
        ((), state, bitmap.elim surroundings surroundings.receive)

end Suite

structure Suite (κ : Type) [BEq κ] [Hashable κ] where
  results : Shared.State κ Bitmap Suite.Listener
  surroundings : Suite.Surroundings
  bufferSettings : Pool.Settings
  buffers : Pool.Stock Buffer Extent
  allowance : Allowance

namespace Suite

variable {κ α : Type} [BEq κ] [Hashable κ]

def ofSettings (settings : Settings) : Suite κ :=
  let bufferSettings := Buffer.poolSettings settings.bufferLimit
  { results := Shared.State.ofLimit settings.resultLimit
    surroundings := { bitmaps := settings.bitmapStrategy.depot, removed := #[] }
    bufferSettings := bufferSettings
    buffers := Pool.Stock.ofLimit bufferSettings.limit
    allowance := default }

def run (suite : Suite κ) (errand : Script (Shared.protocol κ Bitmap Listener) Surroundings α) :
    α × Suite κ :=
  let (result, surroundings, results) := Shared.service.attend attendant errand suite.surroundings suite.results
  (result, { suite with results := results, surroundings := surroundings })

def callResults (suite : Suite κ) (request : Shared.Call κ Bitmap Listener) :
    (Shared.protocol κ Bitmap Listener).Reply request × Suite κ :=
  suite.run (Shared.request request)

def callBitmaps (suite : Suite κ) (request : Pool.Call Bitmap Frame) :
    (Pool.protocol Bitmap Frame).Reply request × Suite κ :=
  let (reply, surroundings) := suite.surroundings.callBitmaps request
  (reply, { suite with surroundings := surroundings })

def callBuffers (suite : Suite κ) (request : Pool.Call Buffer Extent) :
    (Pool.protocol Buffer Extent).Reply request × Suite κ :=
  let service := Pool.service suite.bufferSettings
  let (reply, buffers, _) := service.perform Buffer.supplier.attendant request suite.buffers ()
  (reply, { suite with buffers := buffers })

def clear (suite : Suite κ) : Suite κ :=
  let (_, suite) := suite.callResults .clear
  let (_, suite) := suite.callBitmaps .clear
  (suite.callBuffers .clear).2

def trim (suite : Suite κ) (pressure : Pressure) : Suite κ :=
  let (_, suite) := suite.callResults (.trim pressure)
  let (_, suite) := suite.callBitmaps (.trim pressure)
  (suite.callBuffers (.trim pressure)).2

/-- Scales the cache and the bitmap pool, and tells the allowance until then. The buffer pool keeps its size. -/
def allow (suite : Suite κ) (allowance : Allowance) : Except InvalidMultiplier Allowance × Suite κ :=
  match suite.callResults (.rescale allowance.multiplier) with
  | (.error invalid, suite) => (.error invalid, suite)
  | (.ok _, suite) =>
      match suite.callBitmaps (.rescale allowance.multiplier) with
      | (.error invalid, suite) => (.error invalid, suite)
      | (.ok _, suite) => (.ok suite.allowance, { suite with allowance := allowance })

def recycleRemoved (suite : Suite κ) : Suite κ :=
  (suite.callResults (.listen .recycler)).2

def recordRemoved (suite : Suite κ) : Suite κ :=
  (suite.callResults (.listen .recorder)).2

def turnPage (suite : Suite κ) : Suite κ :=
  { suite with surroundings := { suite.surroundings with removed := #[] } }

end Suite

end MemoryBudget
