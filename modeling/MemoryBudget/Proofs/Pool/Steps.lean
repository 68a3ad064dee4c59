import MemoryBudget.Proofs.Pool.Shelves

/-!
# Steps of pools

What the start of a call and the answer to a query do to a shelf, as far as its objects, its counts and the reply are
concerned. Everything that holds throughout the dialogues with a pool is read off these cases.
-/

set_option autoImplicit false

namespace MemoryBudget

namespace Pool

variable {α σ : Type}

def Call.Quiet : Call α σ → Prop
  | .lookup _ _ | .put _ => False
  | _ => True

variable [Recyclable α σ]

def Care.hand (care : Care) (item : α) : α :=
  if care = .dirty then item else Recyclable.wipe item

def Care.matching (care : Care) (settings : Settings) : Matching :=
  if care = .exact then .exact else settings.matching

namespace Shelf

/-- Some objects stay and the colder ones leave, coldest first, and are counted. -/
structure Sheds (shelf : Shelf α) (outcome : List α × Shelf α) : Prop where
  parted : shelf.items = outcome.2.items ++ outcome.1.reverse
  counted : outcome.2.tally = { shelf.tally with evictions := shelf.tally.evictions + outcome.1.length }

omit [Recyclable α σ] in
theorem sheds_nothing (shelf : Shelf α) : Sheds shelf ([], shelf) where
  parted := (List.append_nil _).symm
  counted := rfl

theorem longest_within_leads (target : Nat) (items : List α) : longestWithin target items <+: items := by
  induction items generalizing target with
  | nil => exact List.nil_prefix
  | cons item rest ih =>
      unfold longestWithin
      by_cases fits : (Recyclable.byteSize item).toNat ≤ target
      · simp only [fits, if_true]
        exact List.cons_prefix_cons.mpr ⟨rfl, ih _⟩
      · simp only [fits, if_false]
        exact List.nil_prefix

theorem longest_within_of_le {target : Nat} {items : List α} (fits : totalSize items ≤ target) :
    longestWithin target items = items := by
  induction items generalizing target with
  | nil => rfl
  | cons item rest ih =>
      rw [totalSize] at fits
      rw [longestWithin, if_pos (by omega), ih (by omega)]

theorem trim_to_sheds (shelf : Shelf α) (target : Nat) : Sheds shelf (shelf.trimTo target) where
  parted := by
    simp only [trimTo, List.reverse_reverse]
    exact (List.prefix_iff_eq_append.mp (longest_within_leads target shelf.items)).symm
  counted := rfl

omit [Recyclable α σ] in
theorem clear_sheds (shelf : Shelf α) : Sheds shelf shelf.clear where
  parted := by simp [clear]
  counted := by simp [clear]

theorem trim_sheds (shelf : Shelf α) (clearsAt pressure : Pressure) :
    Sheds shelf (shelf.trim clearsAt pressure) := by
  unfold trim
  split
  · exact shelf.clear_sheds
  · cases pressure.retention with
    | everything => exact shelf.sheds_nothing
    | half => exact shelf.trim_to_sheds _
    | nothing => exact shelf.clear_sheds

theorem rescale_sheds (shelf : Shelf α) (multiplier : Multiplier) :
    (∃ invalid, shelf.rescale multiplier = .error invalid) ∨
      ∃ outcome, shelf.rescale multiplier = .ok outcome ∧ Sheds shelf outcome := by
  cases valid : multiplier.validate with
  | error invalid => exact Or.inl ⟨invalid, rescale_of_invalid valid shelf⟩
  | ok _ =>
      refine Or.inr ⟨_, rescale_of_valid valid shelf, ?_⟩
      obtain ⟨parted, counted⟩ := trim_to_sheds { shelf with limit := scaleSize shelf.base multiplier }
        (scaleSize shelf.base multiplier).toNat
      exact ⟨parted, counted⟩

/-- An object that is offered is refused and changes nothing, or it comes first and the coldest leave. -/
theorem offer_cases (shelf : Shelf α) (item : α) :
    shelf.offer item = (.refused item, shelf) ∨
    ∃ evicted kept shelf', shelf.offer item = (.admitted evicted, shelf') ∧ shelf.items = kept ++ evicted.reverse ∧
      shelf'.items = item :: kept ∧
        shelf'.tally = { shelf.tally with
          puts := shelf.tally.puts + 1
          evictions := shelf.tally.evictions + evicted.length } := by
  unfold offer
  by_cases tooLarge : shelf.limit ≤ Recyclable.byteSize item
  · simp only [tooLarge, if_true]
    exact Or.inl trivial
  · simp only [tooLarge, if_false]
    obtain ⟨parted, counted⟩ :=
      shelf.trim_to_sheds (shelf.limit.toNat - (Recyclable.byteSize item).toNat)
    refine Or.inr ⟨_, _, _, rfl, parted, rfl, ?_⟩
    simp only [counted]

/-- Where there is room for it, an object comes first and nothing leaves. -/
theorem offer_of_fits {shelf : Shelf α} {item : α} (below : Recyclable.byteSize item < shelf.limit)
    (fits : totalSize (item :: shelf.items) ≤ shelf.limit.toNat) :
    shelf.offer item = (.admitted [], { shelf with
      items := item :: shelf.items
      tally := { shelf.tally with puts := shelf.tally.puts + 1 } }) := by
  rw [totalSize] at fits
  have kept := longest_within_of_le (show totalSize shelf.items ≤ shelf.limit.toNat -
    (Recyclable.byteSize item).toNat by omega)
  rw [offer, if_neg (UInt64.not_le.mpr below), trimTo, kept, List.drop_length]
  rfl

section Taking

variable [Ord σ] [DecidableEq σ]

/-- A lookup takes the first object of the shape that serves it out of the list, or there is none and it takes
nothing. -/
theorem take_cases (shelf : Shelf α) (matching : Matching) (requested : σ) :
    (∃ fresher item colder, shelf.items = fresher ++ item :: colder ∧
      (∀ other ∈ fresher, Recyclable.shape other ≠ Recyclable.shape item) ∧
      shelf.serving? matching requested = some (Recyclable.shape item) ∧
        shelf.take matching requested = (some item, { shelf with
          items := fresher ++ colder
          tally := { shelf.tally with hits := shelf.tally.hits + 1 } })) ∨
    (∀ item ∈ shelf.items, shelf.serving? matching requested ≠ some (Recyclable.shape item)) ∧
      shelf.take matching requested =
        (none, { shelf with tally := { shelf.tally with misses := shelf.tally.misses + 1 } }) := by
  cases found : shelf.items.find? fun item =>
      shelf.serving? matching requested == some (Recyclable.shape item) with
  | none =>
      have missing : ∀ item ∈ shelf.items, shelf.serving? matching requested ≠ some (Recyclable.shape item) := by
        simpa using found
      exact Or.inr ⟨missing, take_of_missing missing⟩
  | some item =>
      obtain ⟨serves, fresher, colder, parted, before⟩ := List.find?_eq_some_iff_append.mp found
      have serving : shelf.serving? matching requested = some (Recyclable.shape item) := by simpa using serves
      have freshest : ∀ other ∈ fresher, Recyclable.shape other ≠ Recyclable.shape item := by
        intro other member same
        have notServed := before other member
        rw [same, serves] at notServed
        cases notServed
      exact Or.inl ⟨fresher, item, colder, parted, freshest, serving, take_of_present parted serving freshest⟩

end Taking

/-! ## Calls and answers -/

inductive Starts [Ord σ] [DecidableEq σ] (settings : Settings) (shelf : Shelf α) : (request : Call α σ) →
    Progress (Work request) ((protocol α σ).Reply request) × Shelf α → Prop where
  | recycles {shelf' : Shelf α} {fresher colder : List α} {item : α} (care : Care) (requested : σ)
      (parted : shelf.items = fresher ++ item :: colder) (kept : shelf'.items = fresher ++ colder)
      (serving : shelf.serving? (care.matching settings) requested = some (Recyclable.shape item))
      (counted : shelf'.tally = { shelf.tally with hits := shelf.tally.hits + 1 }) :
      Starts settings shelf (.lookup care requested) (.replied (care.hand item : α), shelf')
  /-- The client is asked for a new object. -/
  | misses {shelf' : Shelf α} (care : Care) (requested : σ) (same : shelf'.items = shelf.items)
      (counted : shelf'.tally = { shelf.tally with misses := shelf.tally.misses + 1 }) :
      Starts settings shelf (.lookup care requested) (.waiting (.making care requested), shelf')
  /-- The client is asked whether it approves. -/
  | vets (item : α) (admits : settings.admits item = true) :
      Starts settings shelf (.put item) (.waiting (.vetting item), shelf)
  | declines (item : α) : Starts settings shelf (.put item) (discard () [item], shelf)
  /-- The coldest objects leave, if any, and the client is told to discard them. -/
  | sheds {shelf' : Shelf α} {evicted : List α} (request : Call α σ) (quiet : request.Quiet)
      (reply : (protocol α σ).Reply request) (sheds : Sheds shelf (evicted, shelf')) :
      Starts settings shelf request (discard reply evicted, shelf')

inductive Resumes (shelf : Shelf α) : {request : Call α σ} → (work : Work request) →
    (protocol α σ).Answer work.query → Progress (Work request) ((protocol α σ).Reply request) × Shelf α → Prop where
  | supplies (care : Care) (requested : σ) (item : α) :
      Resumes shelf (.making care requested) item (.replied item, shelf)
  | refuses (item : α) (approved : Bool) : Resumes shelf (.vetting item) approved (discard () [item], shelf)
  | admits {shelf' : Shelf α} {evicted kept : List α} (item : α) (parted : shelf.items = kept ++ evicted.reverse)
      (fresh : shelf'.items = item :: kept)
      (counted : shelf'.tally = { shelf.tally with
        puts := shelf.tally.puts + 1
        evictions := shelf.tally.evictions + evicted.length }) :
      Resumes shelf (.vetting item) true (discard () evicted, shelf')
  | discards {request : Call α σ} (item : α) (rest : List α) (reply : (protocol α σ).Reply request) (heard : Unit) :
      Resumes shelf (.discarding item rest reply) heard (discard reply rest, shelf)

/-- A lookup hands out what it takes, or asks for a new object. -/
theorem start_lookup [Ord σ] [DecidableEq σ] (settings : Settings) (shelf : Shelf α) (care : Care) (requested : σ) :
    start settings (.lookup care requested) shelf =
      ((shelf.take (care.matching settings) requested).1.elim (.waiting (.making care requested))
        fun item => .replied (care.hand item : α),
      (shelf.take (care.matching settings) requested).2) := by
  simp only [start, Care.matching, Care.hand]
  split <;> simp_all

theorem start_meets [Ord σ] [DecidableEq σ] (settings : Settings) (shelf : Shelf α) (request : Call α σ) :
    Starts settings shelf request (start settings request shelf) := by
  cases request with
  | lookup care requested =>
      rcases shelf.take_cases (care.matching settings) requested with
        ⟨fresher, item, colder, parted, _, serving, taken⟩ | ⟨_, missed⟩
      · rw [start_lookup, taken]
        exact .recycles care requested parted rfl serving rfl
      · rw [start_lookup, missed]
        exact .misses care requested rfl rfl
  | put item =>
      rw [start]
      by_cases admits : settings.admits item = true
      · rw [if_pos admits]
        exact .vets item admits
      · rw [if_neg admits]
        exact .declines item
  | trimTo target => exact .sheds (.trimTo target) trivial () (shelf.trim_to_sheds target.toNat)
  | clear => exact .sheds .clear trivial () shelf.clear_sheds
  | trim pressure => exact .sheds (.trim pressure) trivial () (shelf.trim_sheds settings.clearsAt pressure)
  | rescale multiplier =>
      rw [start]
      rcases shelf.rescale_sheds multiplier with ⟨invalid, refused⟩ | ⟨outcome, rescaled, sheds⟩
      · rw [refused]
        exact .sheds (.rescale multiplier) trivial (.error invalid) shelf.sheds_nothing
      · rw [rescaled]
        exact .sheds (.rescale multiplier) trivial (.ok ()) sheds
  | usage => exact .sheds .usage trivial shelf.usage shelf.sheds_nothing
  | tally => exact .sheds .tally trivial shelf.tally shelf.sheds_nothing

theorem resume_meets (shelf : Shelf α) {request : Call α σ} (work : Work request)
    (answer : (protocol α σ).Answer work.query) : Resumes shelf work answer (resume work answer shelf) := by
  cases work with
  | making care requested => exact .supplies care requested answer
  | vetting item =>
      cases answer with
      | false => exact .refuses item false
      | true =>
          rw [resume]
          rcases shelf.offer_cases item with refused | ⟨evicted, kept, shelf', admitted, parted, fresh, counted⟩
          · rw [refused]
            exact .refuses item true
          · rw [admitted]
            exact .admits item parted fresh counted
  | discarding item rest reply => exact .discards item rest reply answer

end Shelf

end Pool

end MemoryBudget
