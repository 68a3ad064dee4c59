import MemoryBudget.Proofs.Dialogue.Inquiries
import MemoryBudget.Proofs.Dialogue.Memory
import MemoryBudget.Suite

/-!
# Runs of memory suites

Everything that a host does with a suite, one operation after the other, and what the cache reports on the way.
-/

set_option autoImplicit false

namespace MemoryBudget

namespace Suite

/-- One thing that a host does with a suite. Whatever clients do with handles is an errand to the cache. -/
inductive Operation (κ : Type) where
  | errand (script : Script (Shared.protocol κ Bitmap Listener) Surroundings Unit)
  | callBitmaps (request : Pool.Call Bitmap Frame)
  | callBuffers (request : Pool.Call Buffer Extent)
  | clear
  | trim (pressure : Pressure)
  | allow (allowance : Allowance)
  | recycleRemoved
  | recordRemoved
  | turnPage

variable {κ : Type} [BEq κ] [Hashable κ]

def perform (suite : Suite κ) : Operation κ → Suite κ
  | .errand script => (suite.run script).2
  | .callBitmaps request => (suite.callBitmaps request).2
  | .callBuffers request => (suite.callBuffers request).2
  | .clear => suite.clear
  | .trim pressure => suite.trim pressure
  | .allow allowance => (suite.allow allowance).2
  | .recycleRemoved => suite.recycleRemoved
  | .recordRemoved => suite.recordRemoved
  | .turnPage => suite.turnPage

abbrev Report (κ : Type) [BEq κ] [Hashable κ] : Type :=
  (Shared.service (κ := κ) (ν := Bitmap) (ℓ := Listener)).Inquiry Surroundings

def Operation.errandOf : Operation κ → Script (Shared.protocol κ Bitmap Listener) Surroundings Unit
  | .errand script => script
  | .clear => Shared.request .clear
  | .trim pressure => Shared.request (.trim pressure)
  | .allow allowance => do let _ ← Shared.request (.rescale allowance.multiplier)
  | .recycleRemoved => Shared.request (.listen .recycler)
  | .recordRemoved => Shared.request (.listen .recorder)
  | .callBitmaps _ | .callBuffers _ | .turnPage => .done ()

def reports (suite : Suite κ) (operation : Operation κ) : List (Report κ) :=
  Shared.service.inquiries attendant operation.errandOf suite.surroundings suite.results

def reportsOf (suite : Suite κ) (request : Shared.Call κ Bitmap Listener) : List (Report κ) :=
  Shared.service.inquiriesOf attendant request suite.results suite.surroundings

/-- An operation does nothing to the cache but what it asks of it. -/
theorem results_of_perform (suite : Suite κ) (operation : Operation κ) :
    (suite.perform operation).results =
      (Shared.service.attend attendant operation.errandOf suite.surroundings suite.results).2.2 := by
  cases operation with
  | allow allowance =>
      have rescaled : (suite.callResults (.rescale allowance.multiplier)).2.results =
        (Shared.service.attend attendant (Operation.allow allowance).errandOf suite.surroundings
          suite.results).2.2 := rfl
      rw [perform, allow]
      generalize suite.callResults (.rescale allowance.multiplier) = outcome at rescaled
      obtain ⟨reply, after⟩ := outcome
      -- Whether or not the pool accepts the multiplier, the cache is as it was after it was rescaled.
      have pool : (after.callBitmaps (.rescale allowance.multiplier)).2.results = after.results := rfl
      cases reply with
      | error invalid => exact rescaled
      | ok _ =>
          dsimp only
          generalize after.callBitmaps (.rescale allowance.multiplier) = answer at pool
          obtain ⟨reply, last⟩ := answer
          cases reply with
          | error invalid => exact pool.trans rescaled
          | ok _ => exact pool.trans rescaled
  | _ => rfl

def history (suite : Suite κ) : List (Operation κ) → List (Report κ) × Suite κ
  | [] => ([], suite)
  | operation :: later =>
      let (reports, last) := (suite.perform operation).history later
      (suite.reports operation ++ reports, last)

/-! ## What operations keep -/

/-- An errand makes calls on the cache and does nothing else. -/
def Operation.ReadOnly : Operation κ → Prop
  | .errand script => script.ReadOnly
  | _ => True

/-- What every call on one of the three keeps true of a suite, and what depends neither on its allowance nor on what was
written down. -/
structure Kept (holds : Suite κ → Prop) : Prop where
  results : ∀ {suite}, holds suite → ∀ request, holds (suite.callResults request).2
  bitmaps : ∀ {suite}, holds suite → ∀ request, holds (suite.callBitmaps request).2
  buffers : ∀ {suite}, holds suite → ∀ request, holds (suite.callBuffers request).2
  allowance : ∀ {suite}, holds suite → ∀ allowance, holds { suite with allowance := allowance }
  page : ∀ {suite}, holds suite → holds suite.turnPage

namespace Kept

variable {holds : Suite κ → Prop} {suite : Suite κ}

theorem ran (kept : Kept holds) (before : holds suite)
    (script : Script (Shared.protocol κ Bitmap Listener) Surroundings Unit) (readOnly : script.ReadOnly) :
    holds (suite.run script).2 :=
  Service.attend_keeps Shared.service attendant
    (fun results surroundings => holds { suite with results := results, surroundings := surroundings })
    (fun request _ _ held => kept.results held request) script readOnly suite.surroundings suite.results before

theorem allowed (kept : Kept holds) (before : holds suite) (allowance : Allowance) :
    holds (suite.allow allowance).2 := by
  have rescaled := kept.results before (.rescale allowance.multiplier)
  rw [allow]
  generalize suite.callResults (.rescale allowance.multiplier) = outcome at rescaled
  obtain ⟨reply, between⟩ := outcome
  cases reply with
  | error invalid => exact rescaled
  | ok _ =>
      have both := kept.bitmaps rescaled (.rescale allowance.multiplier)
      dsimp only at both ⊢
      generalize between.callBitmaps (.rescale allowance.multiplier) = answer at both
      obtain ⟨reply, last⟩ := answer
      cases reply with
      | error invalid => exact both
      | ok _ => exact kept.allowance both allowance

theorem performed (kept : Kept holds) (before : holds suite) (operation : Operation κ)
    (readOnly : operation.ReadOnly) : holds (suite.perform operation) := by
  cases operation with
  | errand script => exact kept.ran before script readOnly
  | callBitmaps request => exact kept.bitmaps before request
  | callBuffers request => exact kept.buffers before request
  | clear => exact kept.buffers (kept.bitmaps (kept.results before .clear) .clear) .clear
  | trim pressure =>
      have trimmed := kept.bitmaps (kept.results before (.trim pressure)) (.trim pressure)
      exact kept.buffers trimmed (.trim pressure)
  | allow allowance => exact kept.allowed before allowance
  | recycleRemoved => exact kept.results before (.listen .recycler)
  | recordRemoved => exact kept.results before (.listen .recorder)
  | turnPage => exact kept.page before

theorem history (kept : Kept holds) (operations : List (Operation κ))
    (readOnly : ∀ operation ∈ operations, operation.ReadOnly) (before : holds suite) :
    holds (suite.history operations).2 := by
  induction operations generalizing suite with
  | nil => exact before
  | cons operation later ih =>
      obtain ⟨first, rest⟩ := List.forall_mem_cons.mp readOnly
      exact ih rest (kept.performed before operation first)

end Kept

end Suite

end MemoryBudget
