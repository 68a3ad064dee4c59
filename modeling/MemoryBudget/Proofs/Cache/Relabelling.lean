import MemoryBudget.Cache.Basic
import MemoryBudget.Proofs.Dialogue.Marking
import MemoryBudget.Proofs.Lru.Relabelling

/-!
# Caches do not look into their values

A cache only passes its values on, and compares them. When its values are mapped, and the map respects the
comparison, whatever is said is the same up to the map.
-/

set_option autoImplicit false

namespace MemoryBudget

namespace Cache

open Lru

variable {κ α γ : Type}

def Departure.relabel (map : α → γ) (departure : Departure κ α) : Departure κ γ :=
  { entry := departure.entry.relabel map, cause := departure.cause }

def Call.relabel (map : α → γ) : Call κ α → Call κ γ
  | .put key value => .put key (map value)
  | .get key => .get key
  | .peek key => .peek key
  | .remove key => .remove key
  | .contains key => .contains key
  | .trimTo target => .trimTo target
  | .clear => .clear
  | .trim pressure => .trim pressure
  | .rescale multiplier => .rescale multiplier
  | .usage => .usage

def relabelReply (map : α → γ) :
    (request : Call κ α) → (protocol κ α).Reply request → (protocol κ γ).Reply (request.relabel map)
  | .put _ _, value | .get _, value | .peek _, value | .remove _, value => Option.map map value
  | .contains _, reply => reply
  | .trimTo _, reply => reply
  | .clear, reply => reply
  | .trim _, reply => reply
  | .rescale _, reply => reply
  | .usage, reply => reply

def Query.relabel (map : α → γ) : Query κ α → Query κ γ
  | .price value => .price (map value)
  | .departed departure => .departed (departure.relabel map)

def Work.relabel (map : α → γ) {request : Call κ α} : Work request → Work (request.relabel map)
  | .pricing key value => .pricing key (map value)
  | .telling departure rest reply =>
      .telling (departure.relabel map) (rest.map (Departure.relabel map)) (relabelReply map request reply)

def relabelProgress (map : α → γ) {request : Call κ α} :
    Progress (Work request) ((protocol κ α).Reply request) →
      Progress (Work (request.relabel map)) ((protocol κ γ).Reply (request.relabel map)) :=
  Progress.map (Work.relabel map) (relabelReply map request)

theorem tell_relabel (map : α → γ) (request : Call κ α) (reply : (protocol κ α).Reply request)
    (departures : List (Departure κ α)) :
    tell (relabelReply map request reply) (departures.map (Departure.relabel map)) =
      relabelProgress map (tell reply departures) := by
  cases departures <;> rfl

theorem evictions_relabel (map : α → γ) (entries : List (Entry κ α)) :
    evictions (entries.map (Entry.relabel map)) = (evictions entries).map (Departure.relabel map) := by
  simp [evictions, Departure.relabel, Function.comp_def]

theorem tell_evictions_relabel (map : α → γ) (request : Call κ α) (reply : (protocol κ α).Reply request)
    {evicted : List (Entry κ α)} {evicted' : List (Entry κ γ)} (same : evicted' = evicted.map (Entry.relabel map)) :
    tell (relabelReply map request reply) (evictions evicted') =
      relabelProgress map (tell reply (evictions evicted)) := by
  rw [same, evictions_relabel, tell_relabel]

theorem values_relabel (map : α → γ) (found : Option (Entry κ α)) :
    (found.map (Entry.relabel map)).map (·.value) = (found.map (·.value)).map map := by
  cases found <;> rfl

theorem displaced_relabel (map : α → γ) (displacing : Bool) (previous : Option (Entry κ α)) (key : κ) :
    (if displacing then (previous.map (Entry.relabel map)).toList.map fun entry =>
        (⟨{ entry with key := key }, .displaced⟩ : Departure κ γ) else []) =
      (if displacing then previous.toList.map fun entry => (⟨{ entry with key := key }, .displaced⟩ : Departure κ α)
        else []).map (Departure.relabel map) := by
  cases displacing <;> cases previous <;> rfl

theorem work_query_relabel (map : α → γ) {request : Call κ α} (work : Work request) :
    (work.relabel map).query = work.query.relabel map := by
  cases work <;> rfl

variable [BEq κ] [Hashable κ] [EquivBEq κ] [LawfulHashable κ] {map : α → γ} {store : Lru κ α} {mapped : Lru κ γ}

theorem start_relabel (relabels : Relabels map store mapped) (request : Call κ α) :
    (start (request.relabel map) mapped).1 = relabelProgress map (start request store).1 ∧
      Relabels map (start request store).2 (start (request.relabel map) mapped).2 := by
  cases request with
  | put key value => exact ⟨rfl, relabels⟩
  | get key =>
      obtain ⟨found, relabels'⟩ := relabels.get key
      exact ⟨congrArg Progress.replied found, relabels'⟩
  | peek key => exact ⟨congrArg Progress.replied (relabels.peek key), relabels⟩
  | remove key =>
      obtain ⟨removed, relabels'⟩ := relabels.remove key
      exact ⟨congrArg Progress.replied ((congrArg (Option.map (·.value)) removed).trans (values_relabel map _)),
        relabels'⟩
  | contains key => exact ⟨congrArg Progress.replied (relabels.contains key), relabels⟩
  | trimTo target =>
      obtain ⟨evicted, relabels'⟩ := relabels.trim_to target
      exact ⟨tell_evictions_relabel map (.trimTo target) () evicted, relabels'⟩
  | clear =>
      obtain ⟨evicted, relabels'⟩ := relabels.clear
      exact ⟨tell_evictions_relabel map .clear () evicted, relabels'⟩
  | trim pressure =>
      obtain ⟨evicted, relabels'⟩ := relabels.trim pressure
      exact ⟨tell_evictions_relabel map (.trim pressure) () evicted, relabels'⟩
  | rescale multiplier =>
      simp only [Call.relabel, start]
      rcases relabels.rescale multiplier with ⟨invalid, refused, refused'⟩ |
        ⟨outcome, outcome', ok, ok', evicted, relabels'⟩
      · rw [refused, refused']
        exact ⟨rfl, relabels⟩
      · rw [ok, ok']
        exact ⟨tell_evictions_relabel map (.rescale multiplier) (.ok ()) evicted, relabels'⟩
  | usage => exact ⟨congrArg Progress.replied relabels.usage, relabels⟩

theorem exchange_relabel [BEq α] [BEq γ] (respects : ∀ one other, (map one != map other) = (one != other))
    (relabels : Relabels map store mapped) (offered : Entry κ α) :
    (mapped.exchange (offered.relabel map)).1 =
        ((store.exchange offered).1.1.map (Departure.relabel map), (store.exchange offered).1.2.map map) ∧
      Relabels map (store.exchange offered).2 (mapped.exchange (offered.relabel map)).2 := by
  have displacing : (mapped.peek? offered.key).any (· != map offered.value) =
      (store.peek? offered.key).any (· != offered.value) := by
    rw [relabels.peek]
    cases store.peek? offered.key with
    | none => rfl
    | some value => exact respects value offered.value
  obtain ⟨placed, relabels'⟩ := relabels.insert offered
  cases inserted : store.insert offered with
  | mk placement store' =>
      cases inserted' : mapped.insert (offered.relabel map) with
      | mk placement' mapped' =>
          rw [inserted, inserted'] at placed relabels'
          cases placed
          rw [exchange, exchange, inserted, inserted', Entry.relabel_key]
          cases placement with
          | refused entry => exact ⟨rfl, relabels'⟩
          | admitted previous evicted =>
              refine ⟨Prod.ext ?_ (values_relabel map previous), relabels'⟩
              rw [List.map_append, ← displaced_relabel, ← evictions_relabel, ← displacing]
              rfl

theorem resume_price_relabel [BEq α] [BEq γ] (respects : ∀ one other, (map one != map other) = (one != other))
    (relabels : Relabels map store mapped) (key : κ) (value : α) (cost : UInt64) :
    (resume (.pricing key (map value)) cost mapped).1 =
        relabelProgress map (resume (.pricing key value) cost store).1 ∧
      Relabels map (resume (.pricing key value) cost store).2 (resume (.pricing key (map value)) cost mapped).2 := by
  obtain ⟨exchanged, relabels'⟩ := exchange_relabel respects relabels ⟨key, value, cost⟩
  rw [Entry.relabel] at exchanged
  refine ⟨?_, relabels'⟩
  simp only [resume, exchanged]
  exact tell_relabel map (.put key value) _ _

end Cache

end MemoryBudget
