import MemoryBudget.Pool.Clients
import MemoryBudget.Proofs.Pool.Chronicle
import MemoryBudget.Proofs.Pool.Tagging

/-!
# What becomes of objects

Once the outermost call has returned, each object that was put is resident, or one lookup has handed it out, or the
client was told once to discard it. Objects are told apart by the tags that they got when they were put.
-/

set_option autoImplicit false

namespace MemoryBudget

namespace Pool

open Stock

variable {α σ φ β : Type}

inductive Situation where
  | resident
  /-- A lookup has handed it out. -/
  | served
  /-- The client was told to discard it. -/
  | discarded
  deriving DecidableEq

def accounts [DecidableEq σ] [Hashable σ] (said : List (Utterance (protocol α σ))) (stock : Stock α σ) :
    List (Situation × α) :=
  stock.items.map (Situation.resident, ·) ++
    ((said.flatMap serves).map (Situation.served, ·) ++ (said.flatMap discards).map (Situation.discarded, ·))

def Tagged.numbered (number : Nat) (tagged : Tagged α) : Bool :=
  tagged.tag = some number

/-- All situations that the object with this number is in: the one of being resident, and one for each time that it was
handed out or discarded. -/
def situations [DecidableEq σ] [Hashable σ] (said : List (Utterance (protocol (Tagged α) σ)))
    (stock : Stock (Tagged α) σ) (number : Nat) : List Situation :=
  ((accounts said stock).filter (·.2.numbered number)).map Prod.fst

/-- What is to be found in a dialogue about an object that was put. -/
def Circumstances [DecidableEq σ] [Hashable σ] [Recyclable α σ] (said : List (Utterance (protocol α σ)))
    (stock : Stock α σ) (object : α) : Situation → Prop
  | .resident => object ∈ stock.items
  | .served => ∃ care requested, List.Sublist [.called (.put object), .called (.lookup care requested),
      .replied (.lookup care requested) (care.hand object : α)] said
  | .discarded => List.Sublist [.called (.put object), .asked (.discard object)] said

/-! ## Tags -/

/-- Objects that are put are numbered in the order of the calls. -/
theorem tags_of_marked {said : List (Utterance (protocol (Tagged α) σ))} {taken : Nat}
    (marked : (tagging (α := α)).Marked said taken) :
    (said.flatMap offers).map Tagged.tag = (List.range taken).map some := by
  rw [List.map_flatMap]
  apply marked.numbered
  · intro taken request
    cases request <;> rfl
  · exact fun _ _ => rfl
  · exact fun _ => rfl
  · exact fun _ _ => rfl

/-- Objects that the client makes have no numbers. -/
theorem untagged_of_marked {said : List (Utterance (protocol (Tagged α) σ))} {taken : Nat}
    (marked : (tagging (α := α)).Marked said taken) : ∀ made ∈ said.flatMap supplies, Tagged.tag made = none := by
  induction marked with
  | nothing => exact fun _ none => absurd none List.not_mem_nil
  | called marked request ih => simpa [supplies] using ih
  | replied marked request reply ih => simpa [supplies] using ih
  | asked marked query ih => simpa [supplies] using ih
  | answered marked query answer ih =>
      intro made member
      rw [List.flatMap_append] at member
      rcases List.mem_append.mp member with old | fresh
      · exact ih made old
      · cases query with
        | make requested =>
            cases List.mem_singleton.mp fresh
            rfl
        | approve tagged => cases fresh
        | discard tagged => cases fresh

theorem numbered_wipe [Recyclable α σ] (number : Nat) (tagged : Tagged α) :
    (Recyclable.wipe tagged).numbered number = tagged.numbered number := rfl

/-- Each number is taken by one object that was put. -/
theorem count_numbered {items : List (Tagged α)} {puts : Nat}
    (tags : items.map Tagged.tag = (List.range puts).map some) {number : Nat} (taken : number < puts) :
    items.countP (Tagged.numbered number) = 1 := by
  have counted : items.countP (Tagged.numbered number) = (items.map Tagged.tag).count (some number) := by
    rw [List.count_eq_countP, List.countP_map]
    apply List.countP_congr
    intro tagged member
    simp [Tagged.numbered]
  rw [counted, tags, List.count_map_of_injective _ _ (Option.some_injective Nat)]
  exact List.count_eq_one_of_mem List.nodup_range (List.mem_range.mpr taken)

/-! ## One place for each number -/

theorem eq_of_serves {utterance : Utterance (protocol α σ)} {item : α} (served : item ∈ serves utterance) :
    ∃ care requested, utterance = .replied (.lookup care requested) item := by
  cases utterance with
  | replied request reply =>
      cases request with
      | lookup care requested =>
          cases List.mem_singleton.mp served
          exact ⟨care, requested, rfl⟩
      | _ => nomatch served
  | _ => nomatch served

theorem eq_of_discards {utterance : Utterance (protocol α σ)} {item : α} (discarded : item ∈ discards utterance) :
    utterance = .asked (.discard item) := by
  cases utterance with
  | asked query =>
      cases query with
      | discard other =>
          cases List.mem_singleton.mp discarded
          rfl
      | _ => nomatch discarded
  | _ => nomatch discarded

section Known

variable [DecidableEq σ] [Hashable σ] [Ord σ] [Recyclable α σ] {settings : Settings}

structure Known (said : List (Utterance (protocol (Tagged α) σ))) (stock : Stock (Tagged α) σ)
    (works : List (service (α := Tagged α) (σ := σ) settings).Pending) (puts : Nat) : Prop where
  balanced : ∀ number, Balanced (Tagged.numbered number) said stock.shelf works
  chronicle : Chronicle said stock.shelf works
  tags : (said.flatMap offers).map Tagged.tag = (List.range puts).map some
  made : ∀ made ∈ said.flatMap supplies, Tagged.tag made = none

variable {said : List (Utterance (protocol (Tagged α) σ))} {stock : Stock (Tagged α) σ}
  {works : List (service (α := Tagged α) (σ := σ) settings).Pending} {puts : Nat}

omit [Ord σ] [Recyclable α σ] in
theorem length_situations (number : Nat) : (situations said stock number).length =
    stock.items.countP (Tagged.numbered number) + (said.flatMap serves).countP (Tagged.numbered number) +
      (said.flatMap discards).countP (Tagged.numbered number) := by
  unfold situations accounts
  rw [List.length_map, ← List.countP_eq_length_filter, List.countP_append, List.countP_append, List.countP_map,
    List.countP_map, List.countP_map, ← Nat.add_assoc]
  rfl

theorem Known.one_place (known : Known said stock works puts) {number : Nat} (taken : number < puts) :
    (situations said stock number).length + (waiting works).countP (Tagged.numbered number) = 1 := by
  have balanced := known.balanced number
  unfold Balanced at balanced
  have unmade : (said.flatMap supplies).countP (Tagged.numbered number) = 0 := by
    apply List.countP_eq_zero.mpr
    intro made member
    simp [Tagged.numbered, known.made made member]
  rw [count_numbered known.tags taken, unmade] at balanced
  rw [length_situations]
  have items : stock.shelf.items = stock.items := rfl
  rw [items] at balanced
  omega

/-- Whatever situation a number is in, it belongs to an object that was put, and the circumstances are right. -/
theorem Known.circumstances (known : Known said stock works puts) {number : Nat} {situation : Situation}
    (member : situation ∈ situations said stock number) :
    ∃ object : Tagged α, object.tag = some number ∧ .called (.put object) ∈ said ∧
      Circumstances said stock object situation := by
  obtain ⟨⟨_, object⟩, account, rfl⟩ := List.mem_map.mp member
  obtain ⟨accounted, numbered⟩ := List.mem_filter.mp account
  have tag : object.tag = some number := by simpa [Tagged.numbered] using numbered
  rcases List.mem_append.mp accounted with resident | left
  · obtain ⟨_, present, same⟩ := List.mem_map.mp resident
    cases same
    exact ⟨object, tag, known.chronicle.resident object present, present⟩
  · rcases List.mem_append.mp left with served | discarded
    · obtain ⟨_, heard, same⟩ := List.mem_map.mp served
      cases same
      obtain ⟨utterance, spoken, serves⟩ := List.mem_flatMap.mp heard
      obtain ⟨care, requested, rfl⟩ := eq_of_serves serves
      rcases known.chronicle.explained _ spoken with ⟨item, handed, before⟩ | made
      · have sameTag : item.tag = some number := by
          rw [← tag, handed]
          unfold Care.hand
          split <;> rfl
        rw [handed] at before
        exact ⟨item, sameTag, before.subset List.mem_cons_self, care, requested, before⟩
      · -- A new object has no tag.
        have untagged := known.made object (List.mem_flatMap.mpr ⟨_, made, List.mem_cons_self⟩)
        rw [tag] at untagged
        cases untagged
    · obtain ⟨_, heard, same⟩ := List.mem_map.mp discarded
      cases same
      obtain ⟨utterance, spoken, discards⟩ := List.mem_flatMap.mp heard
      cases eq_of_discards discards
      have before : List.Sublist [.called (.put object), .asked (.discard object)] said :=
        known.chronicle.explained _ spoken
      exact ⟨object, tag, before.subset List.mem_cons_self, before⟩

theorem Known.fate (known : Known said stock ([] : List (service settings).Pending) puts) {number : Nat}
    (taken : number < puts) :
    ∃ object situation, object.tag = some number ∧ .called (.put object) ∈ said ∧
      situations said stock number = [situation] ∧ Circumstances said stock object situation := by
  have one : (situations said stock number).length = 1 := known.one_place taken
  obtain ⟨situation, only⟩ := List.length_eq_one_iff.mp one
  have member : situation ∈ situations said stock number := by
    rw [only]
    exact List.mem_cons_self
  obtain ⟨object, tag, put, circumstances⟩ := known.circumstances member
  exact ⟨object, situation, tag, put, only, circumstances⟩

end Known

/-! ## The result -/

theorem offers_bare (utterance : Utterance (protocol (Tagged α) σ)) :
    offers (tagging.bare utterance) = (offers utterance).map Tagged.item := by
  cases utterance with
  | called request => cases request <;> rfl
  | replied request reply => cases request <;> rfl
  | asked query => cases query <;> rfl
  | answered query answer => cases query <;> rfl

theorem count_offers_bare (said : List (Utterance (protocol (Tagged α) σ))) :
    ((said.map tagging.bare).flatMap offers).length = (said.flatMap offers).length := by
  rw [List.flatMap_map, List.length_flatMap, List.length_flatMap]
  apply congrArg List.sum
  apply List.map_congr_left
  intro utterance _
  rw [offers_bare, List.length_map]

variable [DecidableEq σ] [Hashable σ] [Ord σ] [Recyclable α σ] {settings : Settings}

/-- What is said of discarding follows from where objects are and from the counts. -/
theorem count_discards {said : List (Utterance (protocol α σ))} {shelf : Shelf α}
    (balanced : Balanced (fun _ => true) said shelf ([] : List (service settings).Pending))
    (counted : Counted said shelf ([] : List (service settings).Pending)) :
    shelf.tally.puts ≤ (said.flatMap offers).length ∧ (said.flatMap discards).length =
      (said.flatMap offers).length - shelf.tally.puts + shelf.tally.evictions := by
  obtain ⟨puts, requests, orders, serves, offers⟩ := counted
  unfold Balanced at balanced
  simp only [List.countP_true] at balanced
  have none : (waiting ([] : List (service (α := α) settings).Pending)).length = 0 := rfl
  have undecided : undecided ([] : List (service (α := α) settings).Pending) = 0 := rfl
  omega

/-- At every moment the objects that were admitted are resident, handed out or evicted. Between the calls of the client
itself the counts tell how often it was asked to make and to discard objects, and each object that was put is resident,
or was handed out once, or was discarded once. -/
theorem every_object_is_in_one_place [Std.TransOrd σ] [Std.LawfulEqOrd σ] (settings : Settings)
    (client : Client (protocol α σ) φ) (script : Script (protocol α σ) φ β) (memory : φ) (steps : Nat) :
    let dialogue :=
      (Moment.opening script memory (Stock.ofLimit settings.limit) : Moment (service settings) φ β).advance client steps
    let stock := dialogue.2.state
    let puts := (dialogue.1.flatMap offers).length
    stock.tally.puts = stock.store.count + stock.tally.hits + stock.tally.evictions ∧
    (dialogue.2.role = .client →
      stock.tally.hits + stock.tally.misses = (dialogue.1.flatMap requests).length ∧
      (dialogue.1.flatMap orders).length = stock.tally.misses ∧ stock.tally.puts ≤ puts ∧
      (dialogue.1.flatMap discards).length = puts - stock.tally.puts + stock.tally.evictions) ∧
    -- The same dialogue, in which the objects that are put are numbered in the order of the calls.
    ∃ said moment,
      (Moment.opening (tagging.script id script) (memory, 0) (Stock.ofLimit settings.limit) :
        Moment (service settings) (φ × Nat) β).Leads (tagging.client client) said moment ∧
      (moment.role = .client ↔ dialogue.2.role = .client) ∧ said.map tagging.bare = dialogue.1 ∧
      stock.items = moment.state.items.map Tagged.item ∧
      (said.flatMap offers).map Tagged.tag = (List.range puts).map some ∧
      ∀ number < puts,
        (situations said moment.state number).length + (waiting moment.works).countP (Tagged.numbered number) = 1 ∧
        (dialogue.2.role = .client → ∃ object situation, object.tag = some number ∧ .called (.put object) ∈ said ∧
          situations said moment.state number = [situation] ∧ Circumstances said moment.state object situation) := by
  intro dialogue stock puts
  have leads := Moment.leads_advance client steps
    (Moment.opening script memory (Stock.ofLimit settings.limit) : Moment (service settings) φ β)
  have counted : Counted dialogue.1 stock.shelf dialogue.2.works := counted_of_leads leads
  have balanced : Balanced (fun _ => true) dialogue.1 stock.shelf dialogue.2.works :=
    balanced_of_leads leads fun _ => rfl
  have coherent : Coherent stock := (holds_of_leads (fun _ _ _ => True) trivial
    (fun _ _ _ _ _ _ _ => trivial) (fun _ _ _ _ _ _ _ _ _ _ => trivial) leads).1
  obtain ⟨said, moment, taken, leads', same, bare, marked⟩ :=
    (taggingCommutes settings).leads (of_limit_retagged settings.limit) leads
  have tags := tags_of_marked marked
  have issued : taken = puts := by
    have length := congrArg List.length tags
    rw [List.length_map, List.length_map, List.length_range] at length
    show taken = (dialogue.1.flatMap offers).length
    rw [← bare, count_offers_bare, length]
  rw [issued] at tags
  have known : Known said moment.state moment.works puts :=
    ⟨fun number => balanced_of_leads leads' (numbered_wipe number), chronicle_of_leads leads', tags,
      untagged_of_marked marked⟩
  refine ⟨?_, ?_, said, moment, leads', same.role, bare, same.alike.items, tags, ?_⟩
  · have count : stock.store.count = stock.items.length := by
      rw [coherent.intact.exact_count, Stock.items, List.length_map]
    rw [count]
    exact counted.puts
  · intro rest
    rw [Moment.works_at_rest rest] at counted balanced
    exact ⟨counted.requests, counted.orders, count_discards balanced counted⟩
  · intro number issued
    constructor
    · exact known.one_place issued
    · intro rest
      rw [Moment.works_at_rest (same.role.mpr rest)] at known
      exact known.fate issued

/-- Four puts, and three more from inside discards: of seven objects three are resident, one was handed out and three
were discarded. -/
theorem seven_objects_in_three_situations :
    let settings : Settings :=
      { limit := 100, largestItem := some 60, matching := .atLeast, clearsAt := Pressure.background }
    let practice : Practice (Block .anyIfRoomy) UInt64 :=
      { supplier := Block.supplier, refused := [], remake := Block.firstHalf?, inReach := true }
    let script : Script (protocol (Block .anyIfRoomy) UInt64) (Workshop (Block .anyIfRoomy) UInt64) Unit :=
      .call (.put ⟨10, 10, 1, true⟩) fun _ =>
      .call (.put ⟨50, 50, 2, true⟩) fun _ =>
      .call (.put ⟨60, 60, 3, true⟩) fun _ =>
      .call (.lookup .dirty 60) fun _ =>
      .call (.lookup .dirty 70) fun (new : Block .anyIfRoomy) =>
      .call (.put new) fun _ =>
      .done ()
    let first : Moment (service settings) (Workshop (Block .anyIfRoomy) UInt64) Unit :=
      .opening script { deeds := #[], second := none } (Stock.ofLimit settings.limit)
    let dialogue := first.advance practice.client 48
    dialogue.2.role = .client ∧ (dialogue.1.flatMap offers).length = 7 ∧ dialogue.2.state.store.count = 3 ∧
      (dialogue.1.flatMap requests).length = 2 ∧ (dialogue.1.flatMap discards).length = 3 ∧
        ∃ said stock, said.map tagging.bare = dialogue.1 ∧ stock.items.map Tagged.item = dialogue.2.state.items ∧
          ∀ number < 7, ∃ situation, situations said stock number = [situation] := by
  intro settings practice script first dialogue
  have rest : dialogue.2.role = .client := by cbv
  have puts : (dialogue.1.flatMap offers).length = 7 := by cbv
  have tally : dialogue.2.state.tally = { hits := 1, misses := 1, puts := 6, evictions := 2 } := by cbv
  obtain ⟨admitted, counts, said, moment, _, _, bare, items, _, places⟩ :=
    every_object_is_in_one_place settings practice.client script { deeds := #[], second := none } 48
  obtain ⟨requested, _, _, discarded⟩ := counts rest
  rw [tally] at admitted requested
  rw [tally, puts] at discarded
  rw [puts] at places
  have resident : 3 + 1 + 2 = dialogue.2.state.store.count + 1 + 2 := admitted
  refine ⟨rest, puts, ?_, requested.symm, discarded, said, moment.state, bare, items.symm, ?_⟩
  · exact (Nat.add_right_cancel (Nat.add_right_cancel resident)).symm
  · intro number issued
    obtain ⟨object, situation, _, _, one, _⟩ := (places number issued).2 rest
    exact ⟨situation, one⟩

end Pool

end MemoryBudget
