import MemoryBudget.Proofs.Dialogue.Marking
import MemoryBudget.Proofs.Pool.Refinement
import MemoryBudget.Proofs.Pool.Steps
import MemoryBudget.Proofs.Pool.Views

/-!
# Objects with tags

Objects that are put carry the number of the call that put them. A pool looks at its objects through their shapes and
sizes only, and wiping leaves the tag: so the pool of tagged objects does what the pool of the bare ones does.
-/

set_option autoImplicit false

namespace MemoryBudget

namespace Pool

variable {α σ : Type}

/-- An object with the number of the call that put it. A new object has none. -/
structure Tagged (α : Type) where
  tag : Option Nat
  item : α

namespace Tagged

variable [Recyclable α σ]

instance : Recyclable (Tagged α) σ where
  shape tagged := Recyclable.shape tagged.item
  byteSize tagged := Recyclable.byteSize tagged.item
  wipe tagged := { tagged with item := Recyclable.wipe tagged.item }
  reusable tagged := Recyclable.reusable tagged.item
  serves requested candidate roomy := Recyclable.serves α requested candidate roomy

@[simp] theorem shape_eq (tagged : Tagged α) : Recyclable.shape tagged = Recyclable.shape tagged.item := rfl

@[simp] theorem byte_size_eq (tagged : Tagged α) : Recyclable.byteSize tagged = Recyclable.byteSize tagged.item := rfl

end Tagged

/-! ## What is said, without the tags -/

def Call.untag : Call (Tagged α) σ → Call α σ
  | .lookup care requested => .lookup care requested
  | .put tagged => .put tagged.item
  | .trimTo target => .trimTo target
  | .clear => .clear
  | .trim pressure => .trim pressure
  | .rescale multiplier => .rescale multiplier
  | .usage => .usage
  | .tally => .tally

def untagReply : (request : Call (Tagged α) σ) → (protocol (Tagged α) σ).Reply request →
    (protocol α σ).Reply request.untag
  | .lookup _ _, tagged => Tagged.item tagged
  | .put _, reply => reply
  | .trimTo _, reply => reply
  | .clear, reply => reply
  | .trim _, reply => reply
  | .rescale _, reply => reply
  | .usage, reply => reply
  | .tally, reply => reply

def Query.untag : Query (Tagged α) σ → Query α σ
  | .make requested => .make requested
  | .approve tagged => .approve tagged.item
  | .discard tagged => .discard tagged.item

def untagAnswer : (query : Query (Tagged α) σ) → (protocol (Tagged α) σ).Answer query →
    (protocol α σ).Answer query.untag
  | .make _, tagged => Tagged.item tagged
  | .approve _, approved => approved
  | .discard _, heard => heard

def tagAnswer : (query : Query (Tagged α) σ) → (protocol α σ).Answer query.untag →
    (protocol (Tagged α) σ).Answer query
  | .make _, item => Tagged.mk none item
  | .approve _, approved => approved
  | .discard _, heard => heard

def Call.puts : Call α σ → Nat
  | .put _ => 1
  | _ => 0

def Call.tag (number : Nat) : (request : Call α σ) → { tagged : Call (Tagged α) σ // tagged.untag = request }
  | .lookup care requested => ⟨.lookup care requested, rfl⟩
  | .put item => ⟨.put ⟨some number, item⟩, rfl⟩
  | .trimTo target => ⟨.trimTo target, rfl⟩
  | .clear => ⟨.clear, rfl⟩
  | .trim pressure => ⟨.trim pressure, rfl⟩
  | .rescale multiplier => ⟨.rescale multiplier, rfl⟩
  | .usage => ⟨.usage, rfl⟩
  | .tally => ⟨.tally, rfl⟩

/-- The objects that are put are tagged with numbers in the order of the calls. -/
def tagging : Marking (protocol α σ) (protocol (Tagged α) σ) where
  call := Call.untag
  reply := untagReply
  query := Query.untag
  answer := untagAnswer
  mark := Call.tag
  weight := Call.puts
  markAnswer := tagAnswer
  answer_of_marked asked given := by cases asked <;> rfl

def Work.untag {request : Call (Tagged α) σ} : Work request → Work request.untag
  | .making care requested => .making care requested
  | .vetting tagged => .vetting tagged.item
  | .discarding tagged rest reply => .discarding tagged.item (rest.map Tagged.item) (untagReply request reply)

def untagProgress (request : Call (Tagged α) σ) :
    Progress (Work request) ((protocol (Tagged α) σ).Reply request) →
      Progress (Work request.untag) ((protocol α σ).Reply request.untag) :=
  Progress.map Work.untag (untagReply request)

theorem query_untag {request : Call (Tagged α) σ} (work : Work request) : work.untag.query = work.query.untag := by
  cases work <;> rfl

theorem discard_untag (request : Call (Tagged α) σ) (reply : (protocol (Tagged α) σ).Reply request)
    (items : List (Tagged α)) :
    discard (untagReply request reply) (items.map Tagged.item) = untagProgress request (discard reply items) := by
  cases items <;> rfl

/-! ## Shelves of tagged objects -/

namespace Shelf

def untag (shelf : Shelf (Tagged α)) : Shelf α :=
  { base := shelf.base, limit := shelf.limit, items := shelf.items.map Tagged.item, tally := shelf.tally }

structure Untags {ρ ρ' : Type} (bare : ρ → ρ') (tagged : ρ × Shelf (Tagged α)) (plain : ρ' × Shelf α) : Prop where
  outcome : plain.1 = bare tagged.1
  state : plain.2 = tagged.2.untag

/-- Discarding what an operation sheds. -/
theorem Untags.discards {tagged : List (Tagged α) × Shelf (Tagged α)} {plain : List α × Shelf α}
    (untags : Untags (List.map Tagged.item) tagged plain) (request : Call (Tagged α) σ)
    (reply : (protocol (Tagged α) σ).Reply request) :
    Untags (untagProgress request) (discard reply tagged.1, tagged.2)
      (discard (untagReply request reply) plain.1, plain.2) where
  outcome := (congrArg (discard (untagReply request reply)) untags.outcome).trans (discard_untag request reply tagged.1)
  state := untags.state

theorem untags_unchanged {ρ ρ' : Type} (shelf : Shelf (Tagged α)) (bare : ρ → ρ') (outcome : ρ) :
    Untags bare (outcome, shelf) (bare outcome, shelf.untag) where
  outcome := rfl
  state := rfl

variable [Recyclable α σ]

omit [Recyclable α σ] in
theorem untags_of_view {ρ ρ' : Type} {bare : ρ → ρ'} {tagged : ρ × Shelf (Tagged α)} {plain : ρ' × Shelf α}
    (same : plain = (bare tagged.1, tagged.2.view Tagged.item)) : Untags bare tagged plain where
  outcome := congrArg Prod.fst same
  state := congrArg Prod.snd same

theorem item_is_view : View (Tagged.item : Tagged α → α) where
  shape _ := rfl
  byteSize _ := rfl
  reusable _ := rfl
  serves _ _ _ := rfl

theorem trim_to_untag (shelf : Shelf (Tagged α)) (target : Nat) :
    Untags (List.map Tagged.item) (shelf.trimTo target) (shelf.untag.trimTo target) :=
  untags_of_view (item_is_view.trim_to shelf target)

omit [Recyclable α σ] in
theorem clear_untag (shelf : Shelf (Tagged α)) : Untags (List.map Tagged.item) shelf.clear shelf.untag.clear :=
  untags_of_view (View.clear Tagged.item shelf)

theorem trim_untag (shelf : Shelf (Tagged α)) (clearsAt pressure : Pressure) :
    Untags (List.map Tagged.item) (shelf.trim clearsAt pressure) (shelf.untag.trim clearsAt pressure) :=
  untags_of_view (item_is_view.trim shelf clearsAt pressure)

section Starting

variable [Ord σ] [DecidableEq σ]

theorem start_untag (settings : Settings) (shelf : Shelf (Tagged α)) (request : Call (Tagged α) σ) :
    Untags (untagProgress request) (start settings request shelf) (start settings request.untag shelf.untag) := by
  cases request with
  | lookup care requested =>
      have taken : Untags _ _ (shelf.untag.take _ requested) :=
        untags_of_view (item_is_view.take shelf (care.matching settings) requested)
      show Untags _ (start settings (.lookup care requested) shelf)
        (start settings (.lookup care requested) shelf.untag)
      rw [start, start]
      unfold Care.matching at taken
      obtain ⟨outcome, state⟩ := taken
      simp only [outcome, state]
      cases (shelf.take (if care = .exact then .exact else settings.matching) requested).1 with
      | none => exact ⟨rfl, rfl⟩
      | some tagged =>
          refine ⟨?_, rfl⟩
          by_cases dirty : care = .dirty
          · simp [dirty]
            rfl
          · simp [dirty]
            rfl
  | put tagged =>
      show Untags _ (start settings (.put tagged) shelf) (start settings (.put tagged.item) shelf.untag)
      rw [start, start]
      by_cases admits : settings.admits tagged.item = true
      · have admits' : settings.admits tagged = true := admits
        rw [if_pos admits, if_pos admits']
        exact ⟨rfl, rfl⟩
      · have declined : ¬ settings.admits tagged = true := admits
        rw [if_neg admits, if_neg declined]
        exact ⟨rfl, rfl⟩
  | trimTo target => exact (shelf.trim_to_untag target.toNat).discards (.trimTo target) ()
  | clear => exact shelf.clear_untag.discards .clear ()
  | trim pressure => exact (shelf.trim_untag settings.clearsAt pressure).discards (.trim pressure) ()
  | rescale multiplier =>
      show Untags _ (start settings (.rescale multiplier) shelf) (start settings (.rescale multiplier) shelf.untag)
      rw [start, start]
      cases valid : multiplier.validate with
      | error invalid =>
          rw [shelf.rescale_of_invalid valid, shelf.untag.rescale_of_invalid valid]
          exact ⟨rfl, rfl⟩
      | ok _ =>
          rw [shelf.rescale_of_valid valid, shelf.untag.rescale_of_valid valid]
          have trimmed := Shelf.trim_to_untag { shelf with limit := scaleSize shelf.base multiplier }
            (scaleSize shelf.base multiplier).toNat
          exact trimmed.discards (.rescale multiplier) (.ok ())
  | usage =>
      exact ⟨congrArg Progress.replied (item_is_view.usage shelf), rfl⟩
  | tally => exact shelf.untags_unchanged (untagProgress .tally) (.replied shelf.tally)

end Starting

theorem resume_untag (shelf : Shelf (Tagged α)) {request : Call (Tagged α) σ} (work : Work request)
    (answer : (protocol α σ).Answer work.untag.query) :
    Untags (untagProgress request)
      (resume work (tagAnswer work.query (cast (congrArg (protocol α σ).Answer (query_untag work)) answer)) shelf)
      (resume work.untag answer shelf.untag) := by
  cases work with
  | making care requested => exact ⟨rfl, rfl⟩
  | discarding tagged rest reply => exact ⟨discard_untag request reply rest, rfl⟩
  | vetting tagged =>
      cases answer with
      | false => exact ⟨rfl, rfl⟩
      | true =>
          show Untags _ (@resume (Tagged α) σ _ (.put tagged) (.vetting tagged) true shelf)
            (@resume α σ _ (.put tagged.item) (.vetting tagged.item) true shelf.untag)
          rw [resume, resume]
          have offered : shelf.untag.offer tagged.item = _ := item_is_view.offer shelf tagged
          rw [offered]
          rcases shelf.offer tagged with ⟨refused | evicted, shelf'⟩
          · exact ⟨rfl, rfl⟩
          · exact ⟨discard_untag (.put tagged) () evicted, rfl⟩

end Shelf

/-! ## Pools of tagged objects -/

open Stock

variable [DecidableEq σ] [Hashable σ] [Ord σ] [Recyclable α σ]

structure Retagged (tagged : Stock (Tagged α) σ) (plain : Stock α σ) : Prop where
  coherent : Coherent tagged
  coherent' : Coherent plain
  shelf : plain.shelf = tagged.shelf.untag

theorem Retagged.items {tagged : Stock (Tagged α) σ} {plain : Stock α σ} (retagged : Retagged tagged plain) :
    plain.items = tagged.items.map Tagged.item :=
  congrArg Shelf.items retagged.shelf

theorem of_limit_retagged (limit : UInt64) :
    Retagged (Stock.ofLimit limit : Stock (Tagged α) σ) (Stock.ofLimit limit) where
  coherent := of_limit_coherent limit
  coherent' := of_limit_coherent limit
  shelf := rfl

/-- Stocks follow their shelves, with tags and without. -/
theorem retagged_of_follows {ρ ρ' : Type} {bare : ρ → ρ'} {tagged : ρ × Stock (Tagged α) σ}
    {plain : ρ' × Stock α σ} {meant : ρ × Shelf (Tagged α)} {meant' : ρ' × Shelf α} (follows : Follows tagged meant)
    (follows' : Follows plain meant') (untags : Shelf.Untags bare meant meant') :
    plain.1 = bare tagged.1 ∧ Retagged tagged.2 plain.2 := by
  constructor
  · rw [follows'.outcome, follows.outcome]
    exact untags.outcome
  · constructor
    · exact follows.coherent
    · exact follows'.coherent
    · rw [follows'.state, follows.state]
      exact untags.state

def taggingCommutes [Std.TransOrd σ] [Std.LawfulEqOrd σ] (settings : Settings) :
    tagging.Commutes (service (α := Tagged α) (σ := σ) settings) (service (α := α) settings) where
  work := Work.untag
  asks := query_untag
  alike := Retagged
  start {tagged plain} retagged request := by
    have untags := tagged.shelf.start_untag settings request
    rw [← retagged.shelf] at untags
    exact retagged_of_follows (retagged.coherent.start_follows settings request)
      (retagged.coherent'.start_follows settings request.untag) untags
  resume {tagged plain} retagged request pending answer := by
    have untags := tagged.shelf.resume_untag pending answer
    rw [← retagged.shelf] at untags
    exact retagged_of_follows (retagged.coherent.resume_follows pending _)
      (retagged.coherent'.resume_follows pending.untag answer) untags

end Pool

end MemoryBudget
