import MemoryBudget.Proofs.Cache.Conservation
import MemoryBudget.Proofs.Cache.Relabelling
import MemoryBudget.Proofs.Dialogue.Marking

/-!
# Values with numbers

Values that are put carry the number of the call that put them, so two puts of one value can be told apart. A cache
compares its values and passes them on, and the numbers are not compared: so the cache of numbered values does what the
cache of the bare ones does.
-/

set_option autoImplicit false

namespace MemoryBudget

namespace Cache

variable {κ α : Type}

structure Numbered (α : Type) where
  number : Nat
  value : α

/-- Numbers are not compared. -/
instance [BEq α] : BEq (Numbered α) := ⟨fun one other => one.value == other.value⟩

def Call.puts : Call κ α → Nat
  | .put _ _ => 1
  | _ => 0

def Call.number (number : Nat) :
    (request : Call κ α) → { numbered : Call κ (Numbered α) // numbered.relabel Numbered.value = request }
  | .put key value => ⟨.put key ⟨number, value⟩, rfl⟩
  | .get key => ⟨.get key, rfl⟩
  | .peek key => ⟨.peek key, rfl⟩
  | .remove key => ⟨.remove key, rfl⟩
  | .contains key => ⟨.contains key, rfl⟩
  | .trimTo target => ⟨.trimTo target, rfl⟩
  | .clear => ⟨.clear, rfl⟩
  | .trim pressure => ⟨.trim pressure, rfl⟩
  | .rescale multiplier => ⟨.rescale multiplier, rfl⟩
  | .usage => ⟨.usage, rfl⟩

def bareAnswer : (query : Query κ (Numbered α)) → (protocol κ (Numbered α)).Answer query →
    (protocol κ α).Answer (query.relabel Numbered.value)
  | .price _, cost => cost
  | .departed _, heard => heard

def keepAnswer : (query : Query κ (Numbered α)) →
    (protocol κ α).Answer (query.relabel Numbered.value) → (protocol κ (Numbered α)).Answer query
  | .price _, cost => cost
  | .departed _, heard => heard

/-- The values that are put are numbered in the order of the calls. -/
def numbering : Marking (protocol κ α) (protocol κ (Numbered α)) where
  call := Call.relabel Numbered.value
  reply := relabelReply Numbered.value
  query := Query.relabel Numbered.value
  answer := bareAnswer
  mark := Call.number
  weight := Call.puts
  markAnswer := keepAnswer
  answer_of_marked asked given := by cases asked <;> rfl

/-! ## The numbers that are put -/

def numbersOf (said : List (Utterance (protocol κ (Numbered α)))) : List Nat :=
  (offered said).map (·.number)

theorem numbers_of_marked {said : List (Utterance (protocol κ (Numbered α)))} {taken : Nat}
    (marked : (numbering (α := α)).Marked said taken) : numbersOf said = List.range taken := by
  have numbered : said.flatMap (fun utterance => (offers utterance).map (·.number)) = (List.range taken).map id := by
    apply marked.numbered
    · intro taken request
      cases request <;> rfl
    · exact fun _ _ => rfl
    · exact fun _ => rfl
    · exact fun _ _ => rfl
  rw [numbersOf, offered, List.map_flatMap, numbered, List.map_id]

theorem offered_bare (said : List (Utterance (protocol κ (Numbered α)))) :
    offered (said.map numbering.bare) = (offered said).map Numbered.value := by
  have offers_bare : ∀ utterance : Utterance (protocol κ (Numbered α)),
      offers (numbering.bare utterance) = (offers utterance).map Numbered.value := by
    intro utterance
    cases utterance with
    | called request => cases request <;> rfl
    | answered query answer => cases query <;> rfl
    | _ => rfl
  rw [offered, offered, List.flatMap_map, List.map_flatMap]
  exact congrArg (fun settle => List.flatMap settle said) (funext offers_bare)

/-! ## Caches of numbered values -/

variable [BEq κ] [Hashable κ]

theorem of_limit_relabels (limit : UInt64) :
    Lru.Relabels Numbered.value (Lru.ofLimit limit : Lru κ (Numbered α)) (Lru.ofLimit limit) :=
  ⟨Lru.of_limit_intact limit, Lru.of_limit_intact limit, rfl⟩

variable [EquivBEq κ] [LawfulHashable κ] [BEq α]

theorem resume_relabel {request : Call κ (Numbered α)} (work : Work request)
    (answer : (protocol κ α).Answer (work.relabel Numbered.value).query) {store : Lru κ α}
    {store' : Lru κ (Numbered α)} (relabels : Lru.Relabels Numbered.value store' store) :
    let kept := keepAnswer work.query (cast (congrArg (protocol κ α).Answer (work_query_relabel _ work)) answer)
    (resume (work.relabel Numbered.value) answer store).1 =
        relabelProgress Numbered.value (resume work kept store').1 ∧
      Lru.Relabels Numbered.value (resume work kept store').2
        (resume (work.relabel Numbered.value) answer store).2 := by
  cases work with
  | pricing key value =>
      have respects : ∀ one other : Numbered α, (one.value != other.value) = (one != other) := fun _ _ => rfl
      exact resume_price_relabel respects relabels key value answer
  | telling departure rest reply => exact ⟨tell_relabel Numbered.value request reply rest, relabels⟩

def numberingCommutes :
    numbering.Commutes (service (κ := κ) (α := Numbered α)) (service (κ := κ) (α := α)) where
  work := Work.relabel Numbered.value
  asks := work_query_relabel Numbered.value
  alike := Lru.Relabels Numbered.value
  start relabels request := start_relabel relabels request
  resume relabels _ pending answer := resume_relabel pending answer relabels

end Cache

end MemoryBudget
