import MemoryBudget.Proofs.Dialogue.Attendance
import MemoryBudget.Proofs.Lru.Trimming

/-!
# Attended services that trim

A service with a call for trimming and one for clearing tells its client of each item that leaves. Together with the
memory of a client that never calls back it is something that trims, and the laws of trimming hold of both as soon as
they hold of the store below.
-/

set_option autoImplicit false

namespace MemoryBudget

variable {P : Protocol} {σ τ φ ω : Type}

structure Trimming (P : Protocol) (σ : Type) where
  trimTo : UInt64 → P.Call
  clear : P.Call
  /-- What is told of the items when they leave, freshest first. -/
  items : σ → List P.Query
  cost : P.Query → UInt64
  used : σ → UInt64

def Service.trimmer (service : Service P σ) (trimming : Trimming P σ)
    (answer : (query : P.Query) → φ → P.Answer query × φ) : Trimmer (σ × φ) P.Query where
  items attended := trimming.items attended.1
  cost := trimming.cost
  used attended := trimming.used attended.1
  trimTo attended target :=
    let visit := service.visit answer (trimming.trimTo target) attended.1 attended.2
    (visit.asked, visit.state, visit.memory)
  clear attended :=
    let visit := service.visit answer trimming.clear attended.1 attended.2
    (visit.asked, visit.state, visit.memory)

/-- The store below a service does the trimming, and the state of the service follows it. -/
structure Trimming.Rests (trimming : Trimming P σ) (engine : Engine P σ) (below : Trimmer τ ω) (view : σ → τ)
    (tell : ω → P.Query) (follow : σ → List ω → τ → σ) : Prop where
  items : ∀ state, trimming.items state = (below.items (view state)).map tell
  used : ∀ state, trimming.used state = below.used (view state)
  trims : ∀ target, ∃ reply, engine.transaction (trimming.trimTo target) = .known fun state =>
    let trimmed := below.trimTo (view state) target
    ({ reports := trimmed.1.map tell, reply := .known reply }, follow state trimmed.1 trimmed.2)
  clears : ∃ reply, engine.transaction trimming.clear = .known fun state =>
    let cleared := below.clear (view state)
    ({ reports := cleared.1.map tell, reply := .known reply }, follow state cleared.1 cleared.2)
  view_follow : ∀ state left later, view (follow state left later) = later
  follow_follow : ∀ state left between more later,
    follow (follow state left between) more later = follow state (left ++ more) later

theorem remembered_append (answer : (query : P.Query) → φ → P.Answer query × φ) (memory : φ)
    (asked more : List P.Query) :
    remembered answer (remembered answer memory asked) more = remembered answer memory (asked ++ more) :=
  List.foldl_append.symm

theorem Service.Implements.trimmer_overlays {service : Service P σ} {engine : Engine P σ}
    (implements : service.Implements engine) {trimming : Trimming P σ} {below : Trimmer τ ω} {view : σ → τ}
    {tell : ω → P.Query} {follow : σ → List ω → τ → σ} (rests : trimming.Rests engine below view tell follow)
    (answer : (query : P.Query) → φ → P.Answer query × φ) :
    Trimmer.Overlays (service.trimmer trimming answer) below (fun attended => view attended.1) tell
      fun attended left later => (follow attended.1 left later, remembered answer attended.2 (left.map tell)) where
  items attended := rests.items attended.1
  used attended := rests.used attended.1
  trims attended target := by
    obtain ⟨reply, known⟩ := rests.trims target
    simp only [Service.trimmer, implements.visit_of_known answer _ known rfl]
  clears attended := by
    obtain ⟨reply, known⟩ := rests.clears
    simp only [Service.trimmer, implements.visit_of_known answer _ known rfl]
  view_follow attended left later := rests.view_follow attended.1 left later
  follow_follow attended left between more later := by
    rw [rests.follow_follow, remembered_append, List.map_append]

end MemoryBudget
