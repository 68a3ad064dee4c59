import MemoryBudget.Pool.Shelf
import MemoryBudget.Proofs.Lru.Recency
import MemoryBudget.Proofs.Pool.Buckets

/-!
# Laws of shelves

What the operations of a shelf do to the objects on it. The objects may be the values of entries that keep an
account of them; then trimming the objects by their sizes is trimming the entries by their costs.
-/

set_option autoImplicit false

namespace MemoryBudget

/-- At most half of the limit is in use, in exact arithmetic. -/
theorem Budget.roomy_eq (budget : Budget) :
    budget.roomy = decide (2 * budget.used.toNat ≤ budget.limit.toNat) := by
  apply decide_eq_decide.mpr
  by_cases unused : budget.used = 0
  · simp [unused]
  · have positive : 0 < budget.used.toNat := by
      apply Nat.pos_of_ne_zero
      intro zero
      exact unused (UInt64.toNat_inj.mp zero)
    rw [or_iff_right unused, UInt64.le_iff_toNat_le, UInt64.toNat_div]
    exact Nat.le_div_iff_mul_le positive

namespace Pool

open RecencyList

variable {α σ : Type}

section Order

variable [Ord σ] [Std.TransOrd σ]

omit [Std.TransOrd σ] in
/-- A shape below the request is none of the candidates. -/
theorem LeastFrom.cons_below {requested shape : σ} {shapes : List σ} {least : Option σ}
    (isLeast : LeastFrom requested (· ∈ shapes) least) (below : compare shape requested = .lt) :
    LeastFrom requested (· ∈ shape :: shapes) least := by
  cases least with
  | none => exact List.forall_mem_cons.mpr ⟨below, isLeast⟩
  | some least =>
      obtain ⟨member, fromRequest, others⟩ := isLeast
      refine ⟨List.mem_cons_of_mem _ member, fromRequest, ?_⟩
      exact List.forall_mem_cons.mpr ⟨fun notBelow => absurd below notBelow, others⟩

theorem LeastFrom.cons_only {requested shape : σ} {shapes : List σ}
    (isLeast : LeastFrom requested (· ∈ shapes) none) (notBelow : compare shape requested ≠ .lt) :
    LeastFrom requested (· ∈ shape :: shapes) (some shape) := by
  refine ⟨List.mem_cons_self, notBelow, List.forall_mem_cons.mpr ⟨fun _ => ?_, ?_⟩⟩
  · rw [Std.ReflOrd.compare_self]
    exact nofun
  · intro other member fromRequest
    exact absurd (isLeast other member) fromRequest

theorem LeastFrom.cons_between {requested shape least : σ} {shapes : List σ}
    (isLeast : LeastFrom requested (· ∈ shapes) (some least)) (notBelow : compare shape requested ≠ .lt) :
    LeastFrom requested (· ∈ shape :: shapes)
      (if compare least shape == .lt then some least else some shape) := by
  obtain ⟨member, fromRequest, others⟩ := isLeast
  cases order : compare least shape == .lt with
  | true =>
      have lower : compare least shape = .lt := by simpa using order
      refine ⟨List.mem_cons_of_mem _ member, fromRequest, List.forall_mem_cons.mpr ⟨fun _ => ?_, others⟩⟩
      exact Std.OrientedCmp.not_lt_of_lt lower
  | false =>
      have notLower : compare least shape ≠ .lt := by simpa using order
      refine ⟨List.mem_cons_self, notBelow, List.forall_mem_cons.mpr ⟨fun _ => ?_, ?_⟩⟩
      · rw [Std.ReflOrd.compare_self]
        exact nofun
      · intro other isOther otherFromRequest lower
        -- What is below the new shape would be below the old least one as well.
        have atMost : (compare shape least).isLE := by
          cases reverse : compare shape least with
          | lt => rfl
          | eq => rfl
          | gt => exact absurd (Std.OrientedCmp.lt_of_gt reverse) notLower
        exact others other isOther otherFromRequest (Std.TransCmp.lt_of_lt_of_isLE lower atMost)

omit [Std.TransOrd σ] in
theorem least_from_of_not_below {requested shape : σ} (rest : List σ)
    (notBelow : compare shape requested ≠ .lt) :
    Shelf.leastFrom? requested (shape :: rest) =
      match Shelf.leastFrom? requested rest with
      | none => some shape
      | some least => if compare least shape == .lt then some least else some shape := by
  rw [Shelf.leastFrom?]
  cases order : compare shape requested with
  | lt => exact absurd order notBelow
  | eq => cases Shelf.leastFrom? requested rest <;> rfl
  | gt => cases Shelf.leastFrom? requested rest <;> rfl

theorem least_from_is_least (requested : σ) (shapes : List σ) :
    LeastFrom requested (· ∈ shapes) (Shelf.leastFrom? requested shapes) := by
  induction shapes with
  | nil => exact fun _ none => nomatch none
  | cons shape rest ih =>
      by_cases below : compare shape requested = .lt
      · rw [Shelf.leastFrom?, below]
        exact ih.cons_below below
      · rw [least_from_of_not_below rest below]
        cases least : Shelf.leastFrom? requested rest with
        | none => exact LeastFrom.cons_only (least ▸ ih) below
        | some least' => exact LeastFrom.cons_between (least ▸ ih) below

end Order

variable [Recyclable α σ]

structure Faithful (entry : Entry (Ticket σ) α) : Prop where
  shape : entry.key.shape = Recyclable.shape entry.value
  cost : entry.cost = Recyclable.byteSize entry.value

namespace Shelf

/-! ## Trimming -/

theorem total_size_map {entries : List (Entry (Ticket σ) α)} (faithful : ∀ entry ∈ entries, Faithful entry) :
    totalSize (entries.map (·.value)) = totalCost entries := by
  induction entries with
  | nil => rfl
  | cons entry rest ih =>
      rw [List.forall_mem_cons] at faithful
      rw [List.map_cons, totalSize, total_cost_cons, faithful.1.cost, ih faithful.2]

theorem longest_within_map (target : Nat) {entries : List (Entry (Ticket σ) α)}
    (faithful : ∀ entry ∈ entries, Faithful entry) :
    longestWithin target (entries.map (·.value)) = (RecencyList.longestWithin target entries).map (·.value) := by
  induction entries generalizing target with
  | nil => rfl
  | cons entry rest ih =>
      rw [List.forall_mem_cons] at faithful
      rw [List.map_cons, longestWithin, RecencyList.longestWithin, faithful.1.cost]
      by_cases fits : (Recyclable.byteSize entry.value).toNat ≤ target
      · rw [if_pos fits, if_pos fits, List.map_cons, ih _ faithful.2]
      · rw [if_neg fits, if_neg fits]
        rfl

theorem trim_to_map (shelf : Shelf α) (target : Nat) {entries : List (Entry (Ticket σ) α)}
    (faithful : ∀ entry ∈ entries, Faithful entry) (same : shelf.items = entries.map (·.value)) :
    shelf.trimTo target = ((split target entries).2.map (·.value), { shelf with
      items := (split target entries).1.map (·.value)
      tally := { shelf.tally with evictions := shelf.tally.evictions + (split target entries).2.length } }) := by
  simp only [trimTo, split, same, longest_within_map target faithful, List.length_map, ← List.map_drop,
    List.map_reverse, List.length_reverse]

omit [Recyclable α σ] in
theorem clear_map (shelf : Shelf α) (entries : List (Entry (Ticket σ) α))
    (same : shelf.items = entries.map (·.value)) :
    shelf.clear = (entries.reverse.map (·.value), { shelf with
      items := []
      tally := { shelf.tally with evictions := shelf.tally.evictions + entries.reverse.length } }) := by
  simp only [clear, same, List.map_reverse, List.length_map, List.length_reverse]

theorem rescale_of_invalid {multiplier : Multiplier} {invalid : InvalidMultiplier}
    (refused : multiplier.validate = .error invalid) (shelf : Shelf α) :
    shelf.rescale multiplier = .error invalid := by
  rw [rescale, refused]
  rfl

theorem rescale_of_valid {multiplier : Multiplier} (valid : multiplier.validate = .ok ()) (shelf : Shelf α) :
    shelf.rescale multiplier = .ok ({ shelf with limit := scaleSize shelf.base multiplier }.trimTo
      (scaleSize shelf.base multiplier).toNat) := by
  rw [rescale, valid]
  rfl

/-! ## Taking -/

variable [Ord σ] [DecidableEq σ]

theorem take_of_missing {shelf : Shelf α} {matching : Matching} {requested : σ}
    (missing : ∀ item ∈ shelf.items, shelf.serving? matching requested ≠ some (Recyclable.shape item)) :
    shelf.take matching requested =
      (none, { shelf with tally := { shelf.tally with misses := shelf.tally.misses + 1 } }) := by
  have notFound : shelf.items.find? (fun item =>
      shelf.serving? matching requested == some (Recyclable.shape item)) = none := by
    rw [List.find?_eq_none]
    intro item member
    simpa using missing item member
  simp only [take, notFound]

theorem take_found (shelf : Shelf α) (matching : Matching) (requested : σ) :
    (shelf.take matching requested).1 =
      shelf.items.find? fun item => shelf.serving? matching requested == some (Recyclable.shape item) := by
  cases found : shelf.items.find? fun item => shelf.serving? matching requested == some (Recyclable.shape item) with
  | none => simp only [take, found]
  | some item => simp only [take, found]

theorem take_left (shelf : Shelf α) (matching : Matching) (requested : σ) :
    (shelf.take matching requested).2.items =
      shelf.items.eraseP fun item => shelf.serving? matching requested == some (Recyclable.shape item) := by
  cases found : shelf.items.find? fun item => shelf.serving? matching requested == some (Recyclable.shape item) with
  | none => simp only [take, found, List.eraseP_of_forall_not (List.find?_eq_none.mp found)]
  | some item => simp only [take, found]

/-- What is taken is the most recently put object of the shape, wherever it lies. -/
theorem take_of_present {shelf : Shelf α} {matching : Matching} {requested : σ} {fresher colder : List α}
    {item : α} (parted : shelf.items = fresher ++ item :: colder)
    (serving : shelf.serving? matching requested = some (Recyclable.shape item))
    (freshest : ∀ other ∈ fresher, Recyclable.shape other ≠ Recyclable.shape item) :
    shelf.take matching requested = (some item, { shelf with
      items := fresher ++ colder
      tally := { shelf.tally with hits := shelf.tally.hits + 1 } }) := by
  have notBefore : ∀ other ∈ fresher, ¬ (some (Recyclable.shape item) == some (Recyclable.shape other)) = true := by
    intro other member same
    have sameShape : Recyclable.shape item = Recyclable.shape other := by simpa using same
    exact freshest other member sameShape.symm
  have found : shelf.items.find? (fun other => some (Recyclable.shape item) == some (Recyclable.shape other)) =
      some item := by
    rw [parted, List.find?_append, List.find?_eq_none.mpr notBefore]
    simp
  have erased : shelf.items.eraseP (fun other => some (Recyclable.shape item) == some (Recyclable.shape other)) =
      fresher ++ colder := by
    rw [parted, List.eraseP_append_right _ notBefore]
    simp
  simp only [take, serving, found, erased]

end Shelf

end Pool

end MemoryBudget
