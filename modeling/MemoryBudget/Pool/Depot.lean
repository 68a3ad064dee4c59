import MemoryBudget.Pool.Basic

/-!
# Depots

Whether objects are pooled at all is a matter of strategy. A depot answers the calls of a pool either way: one
that pools has a stock, and one that does not asks for a new object at every request and hands back every
object it is given.
-/

set_option autoImplicit false

namespace MemoryBudget

namespace Pool

inductive Strategy where
  | pooled (settings : Settings)
  | unpooled

inductive Depot (α σ : Type) [DecidableEq σ] [Hashable σ] where
  | pooled (settings : Settings) (stock : Stock α σ)
  | unpooled

def Strategy.depot {α σ : Type} [DecidableEq σ] [Hashable σ] : Strategy → Depot α σ
  | .pooled settings => .pooled settings (Stock.ofLimit settings.limit)
  | .unpooled => .unpooled

namespace Depot

variable {α σ : Type} [DecidableEq σ] [Hashable σ]

/-- A depot that does not pool has no size. -/
def usage : Depot α σ → Usage
  | .pooled _ stock => stock.store.usage
  | .unpooled => { limit := 0, used := 0, count := 0 }

variable [Ord σ] [Recyclable α σ]

def start : (request : Call α σ) → Depot α σ →
    Progress (Work request) ((protocol α σ).Reply request) × Depot α σ
  | request, .pooled settings stock =>
      let (progress, stock) := Pool.start settings request stock
      (progress, .pooled settings stock)
  | .lookup care requested, .unpooled => (.waiting (.making care requested), .unpooled)
  | .put item, .unpooled => (discard () [item], .unpooled)
  | .rescale multiplier, .unpooled => (.replied multiplier.validate, .unpooled)
  | .trimTo _, .unpooled | .clear, .unpooled | .trim _, .unpooled => (.replied (), .unpooled)
  | .usage, .unpooled => (.replied (usage (.unpooled : Depot α σ)), .unpooled)
  | .tally, .unpooled => (.replied Tally.zero, .unpooled)

def resume {request : Call α σ} :
    (work : Work request) → (protocol α σ).Answer work.query → Depot α σ →
      Progress (Work request) ((protocol α σ).Reply request) × Depot α σ
  | work, answer, .pooled settings stock =>
      let (progress, stock) := Pool.resume work answer stock
      (progress, .pooled settings stock)
  | .making _ _, item, .unpooled => (.replied item, .unpooled)
  | .vetting item, _, .unpooled => (discard () [item], .unpooled)
  | .discarding _ rest reply, _, .unpooled => (discard reply rest, .unpooled)

theorem resume_advances {request : Call α σ} (work : Work request)
    (answer : (protocol α σ).Answer work.query) (depot : Depot α σ) (later : Work request)
    (depot' : Depot α σ) (progressed : resume work answer depot = (.waiting later, depot')) :
    later.phase < work.phase ∨ (later.phase = work.phase ∧ later.backlog < work.backlog) := by
  cases depot with
  | pooled settings stock =>
      exact Pool.resume_advances work answer stock later (Pool.resume work answer stock).2
        (Prod.ext (Prod.mk.inj progressed).1 rfl)
  | unpooled =>
      cases work with
      | making care requested => cases progressed
      | vetting item => exact Or.inl (phase_lt_vetting (Prod.mk.inj progressed).1)
      | discarding item rest reply => exact Or.inr (discard_waiting (Prod.mk.inj progressed).1)

def service : Service (protocol α σ) (Depot α σ) where
  Work := Work
  query := Work.query
  start := start
  resume := resume
  phase := Work.phase
  backlog := Work.backlog
  advances := resume_advances

end Depot

end Pool

end MemoryBudget
