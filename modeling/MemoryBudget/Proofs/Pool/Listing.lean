import MemoryBudget.Pool.Stock
import MemoryBudget.Proofs.Lru.Recency
import MemoryBudget.Proofs.Pool.Buckets

/-!
# Buckets that list entries

The buckets are in step with the entries of a store: of each shape they say which serial numbers its entries have,
freshest first. They stay in step when an entry becomes the freshest one, when the freshest entry of a shape is
taken out, and when any entry is erased, wherever it stands.
-/

set_option autoImplicit false

namespace MemoryBudget

namespace Pool

open RecencyList

variable {α σ : Type} [DecidableEq σ]

omit [DecidableEq σ] in
theorem ticket_eq {one other : Ticket σ} (sameShape : one.shape = other.shape)
    (sameSerial : one.serial = other.serial) : one = other := by
  cases one
  cases other
  cases sameShape
  cases sameSerial
  rfl

def serialsIn (shape : σ) (entries : List (Entry (Ticket σ) α)) : List Nat :=
  (entries.filter (·.key.shape = shape)).map (·.key.serial)

theorem serials_in_cons (shape : σ) (entry : Entry (Ticket σ) α) (entries : List (Entry (Ticket σ) α)) :
    serialsIn shape (entry :: entries) =
      if shape = entry.key.shape then entry.key.serial :: serialsIn shape entries
      else serialsIn shape entries := by
  by_cases same : shape = entry.key.shape
  · simp [serialsIn, same]
  · simp [serialsIn, same, Ne.symm same]

@[simp] theorem serials_in_append (shape : σ) (entries rest : List (Entry (Ticket σ) α)) :
    serialsIn shape (entries ++ rest) = serialsIn shape entries ++ serialsIn shape rest := by
  simp [serialsIn]

theorem serials_in_eq_nil {shape : σ} {entries : List (Entry (Ticket σ) α)} :
    serialsIn shape entries = [] ↔ ∀ entry ∈ entries, entry.key.shape ≠ shape := by
  simp [serialsIn]

/-- A serial number is given to one entry only. -/
theorem serial_not_in {entries : List (Entry (Ticket σ) α)} {entry : Entry (Ticket σ) α}
    (absent : ∀ other ∈ entries, (other.key == entry.key) = false) :
    entry.key.serial ∉ serialsIn entry.key.shape entries := by
  intro member
  obtain ⟨other, sameShape, sameSerial⟩ := List.mem_map.mp member
  obtain ⟨resident, isShape⟩ := List.mem_filter.mp sameShape
  have sameKey : other.key = entry.key := ticket_eq (by simpa using isShape) sameSerial
  have differs := absent other resident
  rw [sameKey, BEq.rfl] at differs
  cases differs

/-- Among the entries of a shape one is the freshest. -/
theorem exists_freshest {shape : σ} {entries : List (Entry (Ticket σ) α)}
    (resident : ∃ entry ∈ entries, entry.key.shape = shape) :
    ∃ fresher entry colder, entries = fresher ++ entry :: colder ∧ entry.key.shape = shape ∧
      ∀ other ∈ fresher, other.key.shape ≠ shape := by
  cases found : entries.find? (·.key.shape = shape) with
  | none =>
      obtain ⟨entry, member, isShape⟩ := resident
      exact absurd isShape (by simpa using List.find?_eq_none.mp found entry member)
  | some entry =>
      obtain ⟨isShape, fresher, colder, parted, before⟩ := List.find?_eq_some_iff_append.mp found
      refine ⟨fresher, entry, colder, parted, by simpa using isShape, ?_⟩
      intro other member
      simpa using before other member

variable [Ord σ]

structure Lists (buckets : Buckets σ) (entries : List (Entry (Ticket σ) α)) : Prop where
  ordered : buckets.Ordered
  listed : ∀ shape, buckets.serialsOf shape = serialsIn shape entries

theorem lists_nothing : Lists ⟨[]⟩ ([] : List (Entry (Ticket σ) α)) where
  ordered := Buckets.empty_ordered
  listed := fun _ => rfl

variable {buckets : Buckets σ} {entries : List (Entry (Ticket σ) α)}

theorem Lists.find_is_some (lists : Lists buckets entries) (shape : σ) :
    (buckets.find? shape).isSome = true ↔ ∃ entry ∈ entries, entry.key.shape = shape := by
  rw [lists.ordered.find_is_some, lists.listed, Ne, serials_in_eq_nil]
  simp

variable [Std.TransOrd σ] [Std.LawfulEqOrd σ]

theorem Lists.least_from (lists : Lists buckets entries) (requested : σ) :
    LeastFrom requested (fun shape => ∃ entry ∈ entries, entry.key.shape = shape)
      (buckets.leastFrom? requested) := by
  have least := lists.ordered.least_from requested
  have resident : (fun shape => buckets.serialsOf shape ≠ []) =
      fun shape => ∃ entry ∈ entries, entry.key.shape = shape := by
    funext shape
    rw [lists.listed, Ne, serials_in_eq_nil]
    simp
  rwa [resident] at least

theorem Lists.push (lists : Lists buckets entries) (entry : Entry (Ticket σ) α) :
    Lists (buckets.push entry.key.shape entry.key.serial) (entry :: entries) where
  ordered := lists.ordered.push _ _
  listed shape := by
    rw [lists.ordered.serials_of_push, serials_in_cons, lists.listed, lists.listed]
    by_cases same : shape = entry.key.shape
    · rw [if_pos same, if_pos same, same]
    · rw [if_neg same, if_neg same]

/-- Only one set of buckets lists these entries. -/
theorem Lists.unique {buckets' : Buckets σ} (lists : Lists buckets entries)
    (lists' : Lists buckets' entries) : buckets = buckets' := by
  have same : buckets.toList = buckets'.toList := by
    apply Buckets.Ordered.ext lists.ordered lists'.ordered
    intro shape
    exact (lists.listed shape).trans (lists'.listed shape).symm
  cases buckets
  cases buckets'
  exact congrArg Buckets.mk same

/-- Taking out the freshest entry of a shape takes the newest serial number. -/
theorem Lists.pop {fresher colder : List (Entry (Ticket σ) α)} {entry : Entry (Ticket σ) α}
    (lists : Lists buckets (fresher ++ entry :: colder))
    (freshest : ∀ other ∈ fresher, other.key.shape ≠ entry.key.shape) :
    ∃ buckets', buckets.pop? entry.key.shape = some (entry.key.serial, buckets') ∧
      Lists buckets' (fresher ++ colder) := by
  have before : serialsIn entry.key.shape fresher = [] := serials_in_eq_nil.mpr freshest
  have newest : buckets.serialsOf entry.key.shape =
      entry.key.serial :: serialsIn entry.key.shape (fresher ++ colder) := by
    rw [lists.listed, serials_in_append, serials_in_append, serials_in_cons, if_pos rfl, before]
    rfl
  refine ⟨buckets.amend entry.key.shape List.tail, ?_, lists.ordered.amend _ _, ?_⟩
  · rw [Buckets.pop_eq, newest]
    rfl
  · intro shape
    rw [lists.ordered.serials_of_amend _ _ rfl]
    by_cases same : shape = entry.key.shape
    · rw [if_pos same, newest, same]
      rfl
    · rw [if_neg same, lists.listed, serials_in_append, serials_in_append, serials_in_cons, if_neg same]

/-- An erased entry may stand anywhere among the others. -/
theorem Lists.erase {fresher colder : List (Entry (Ticket σ) α)} {entry : Entry (Ticket σ) α}
    (lists : Lists buckets (fresher ++ entry :: colder))
    (distinct : DistinctKeys (fresher ++ entry :: colder)) :
    Lists (buckets.erase entry.key.shape entry.key.serial) (fresher ++ colder) where
  ordered := lists.ordered.amend _ _
  listed shape := by
    have absent : entry.key.serial ∉ serialsIn entry.key.shape fresher := by
      apply serial_not_in
      intro other member
      exact (distinct_keys_around distinct).2 other (List.mem_append_left _ member)
    rw [Buckets.erase, lists.ordered.serials_of_amend _ _ rfl]
    by_cases same : shape = entry.key.shape
    · rw [if_pos same, lists.listed, same, serials_in_append, serials_in_append, serials_in_cons, if_pos rfl,
        List.erase_append_right _ absent, List.erase_cons_head]
    · rw [if_neg same, lists.listed, serials_in_append, serials_in_append, serials_in_cons, if_neg same]

/-- Evicted entries are erased one after the other, coldest first. -/
theorem Lists.erase_evicted {kept evicted : List (Entry (Ticket σ) α)}
    (lists : Lists buckets (kept ++ evicted.reverse)) (distinct : DistinctKeys (kept ++ evicted.reverse)) :
    Lists (evicted.foldl (fun buckets entry => buckets.erase entry.key.shape entry.key.serial) buckets)
      kept := by
  induction evicted generalizing buckets with
  | nil =>
      rw [List.reverse_nil, List.append_nil] at lists
      exact lists
  | cons coldest rest ih =>
      rw [List.reverse_cons, ← List.append_assoc] at lists distinct
      have erased := lists.erase distinct
      have distinct' := (distinct_keys_around distinct).1
      rw [List.append_nil] at erased distinct'
      exact ih erased distinct'

end Pool

end MemoryBudget
