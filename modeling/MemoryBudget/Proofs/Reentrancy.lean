import MemoryBudget.Pool.Clients
import MemoryBudget.Block
import MemoryBudget.Proofs.Cache.Linearisation
import MemoryBudget.Proofs.Pool.Linearisation

/-!
# Calling back

What a client may do from inside a report, it may do between two calls. A call to a cache or to a pool is one
transaction of the engine, then everything that the client does about the first report, then everything that it does
about the second one, and so on; the calls that it makes there are such calls themselves.
-/

set_option autoImplicit false

namespace MemoryBudget

variable {κ α β σ : Type} [BEq κ] [Hashable κ] [EquivBEq κ] [LawfulHashable κ] [BEq α] [DecidableEq σ] [Hashable σ]
  [Ord σ] [Std.TransOrd σ] [Std.LawfulEqOrd σ] [Recyclable β σ]

/-- Whatever a client calls back for, and however deep, a dialogue with a cache or a pool is the execution in which
every call is one transaction, followed by its reports one after the other, each with all that the client does about
it. The transaction settles the reply, unless a pool has nothing to serve and the client makes the object. Whenever
the client is asked or told anything, the budget accounts for what is resident, no two residents have one key, and the
buckets of a pool list them. -/
theorem calling_back_is_executed_in_order (settings : Pool.Settings) :
    ((Cache.service (κ := κ) (α := α)).Linearises Cache.engine ∧
      (∀ request transaction, ((Cache.engine (κ := κ) (α := α)).transaction request).MayBe transaction →
        ∀ store, ∃ reply, (transaction store).1.reply = .known reply) ∧
      ∀ (φ ρ : Type) limit client (script : Script (Cache.protocol κ α) φ ρ) memory said
        (moment : Moment Cache.service φ ρ),
        (Moment.opening script memory (Lru.ofLimit limit)).Leads client said moment →
          Cache.Accountable said moment.state ∧
            ∀ key value cost, Cache.PutReports key value cost moment.state) ∧
    (Pool.service (α := β) (σ := σ) settings).Linearises (Pool.engine settings) ∧
      (∀ request transaction, ((Pool.engine (α := β) (σ := σ) settings).transaction request).MayBe transaction →
        ∀ stock, (∃ reply, (transaction stock).1.reply = .known reply) ∨
          ∃ care requested, request = .lookup care requested ∧
            (stock.take (if care = .exact then .exact else settings.matching) requested).1 = none) ∧
      ∀ (φ ρ : Type) client (script : Script (Pool.protocol β σ) φ ρ) memory said
        (moment : Moment (Pool.service settings) φ ρ),
        (Moment.opening script memory (Pool.Stock.ofLimit settings.limit)).Leads client said moment →
          Pool.InStep moment.state := by
  refine ⟨⟨?_, ?_, ?_⟩, ?_, ?_, ?_⟩
  · exact Cache.service_implements.linearises
  · exact fun _ _ own store => Cache.transaction_settles own store
  · intro φ ρ limit client script memory said moment leads
    have recorded := Cache.recorded_of_leads leads
    exact ⟨recorded.accountable, Cache.put_reports recorded.intact⟩
  · exact (Pool.service_implements settings).linearises
  · exact fun _ _ own stock => Pool.transaction_settles own stock
  · exact fun _ _ _ _ _ _ _ leads => Pool.in_step_of_leads leads

/-- A client that is told of an eviction puts half of the value back, and one that is handed a block back trims the
pool: both come to an end, as the executions by the engines do. -/
theorem half_put_back_and_trimmed_within :
    let puts : Script (Cache.protocol Nat Nat) (Cache.Diary Nat Nat) Unit :=
      .call (.put 1 6) fun _ => .call (.put 2 6) fun _ => .done ()
    let demoter := Cache.demoter UInt64.ofNat fun value => if 1 < value then some (value / 2) else none
    let settings : Pool.Settings :=
      { limit := 100, largestItem := none, matching := .exact, clearsAt := Pressure.background }
    let gives : Script (Pool.protocol (Block .sameShape) UInt64) (List Int) Unit :=
      .call (.put ⟨40, 40, 1, true⟩) fun _ => .call (.put ⟨40, 40, 2, true⟩) fun _ =>
      .call (.put ⟨40, 40, 3, true⟩) fun _ => .done ()
    let trimmer : Client (Pool.protocol (Block .sameShape) UInt64) (List Int) := fun
      | .make requested => .done (Block.fresh requested)
      | .approve _ => .done true
      | .discard block => .consult fun tags => .remember (tags ++ [block.tag]) (.call (.trimTo 40) .done)
    (∃ patience ending,
      Cache.service.converse demoter patience puts Cache.Diary.empty (Lru.ofLimit 10) = some ending ∧
        ending.state.entries = [⟨1, 3, 3⟩, ⟨2, 6, 6⟩]) ∧
    ∃ patience ending,
      (Pool.service settings).converse trimmer patience gives [] (Pool.Stock.ofLimit settings.limit) = some ending ∧
        ending.memory = [1, 2] ∧ ending.state.items = [⟨40, 40, 3, true⟩] := by
  intro puts demoter settings gives trimmer
  obtain ⟨⟨cache, _⟩, pool, _⟩ :=
    calling_back_is_executed_in_order (κ := Nat) (α := Nat) (β := Block .sameShape) settings
  constructor
  · have executed : ((Cache.engine.converse demoter 2 puts Cache.Diary.empty (Lru.ofLimit 10)).map
        fun course => course.state.entries) = some [⟨1, 3, 3⟩, ⟨2, 6, 6⟩] := by
      unfold puts demoter
      cbv
    obtain ⟨course, went, entries⟩ := Option.map_eq_some_iff.mp executed
    obtain ⟨patience, ended⟩ := (cache.ends demoter puts Cache.Diary.empty (Lru.ofLimit 10)
      ⟨course.outcome, course.memory, course.state⟩).mpr ⟨2, course.acts, went⟩
    exact ⟨patience, _, ended, entries⟩
  · have executed : (((Pool.engine settings).converse trimmer 2 gives [] (Pool.Stock.ofLimit settings.limit)).map
        fun course => (course.memory, course.state.items)) = some ([1, 2], [⟨40, 40, 3, true⟩]) := by
      unfold gives trimmer
      cbv
    obtain ⟨course, went, seen⟩ := Option.map_eq_some_iff.mp executed
    obtain ⟨memory, items⟩ := Prod.mk.inj seen
    obtain ⟨patience, ended⟩ := (pool.ends trimmer gives [] (Pool.Stock.ofLimit settings.limit)
      ⟨course.outcome, course.memory, course.state⟩).mpr ⟨2, course.acts, went⟩
    exact ⟨patience, _, ended, memory, items⟩

end MemoryBudget
