import MemoryBudget.Proofs.Lru.Refinement
import MemoryBudget.Proofs.Lru.Relief
import Mathlib.Tactic.Common

/-!
# Rescaling a store

A store takes any multiplier that is at least zero. Its limit is then the base times the multiplier, whatever limits it
had before, and no more of the coldest entries leave than have to. Any other multiplier changes nothing.
-/

set_option autoImplicit false

namespace MemoryBudget

/-! ## Multipliers that are refused -/

namespace Multiplier

/-- Not a number: beyond the pattern for infinity once the sign is set aside. -/
def Undefined (multiplier : Multiplier) : Prop :=
  0x7f800000 < multiplier.bits.toNat % 0x80000000

/-- Less than zero: a number with its sign set, other than the negative zero. -/
def BelowZero (multiplier : Multiplier) : Prop :=
  0x80000000 < multiplier.bits.toNat ∧ ¬ multiplier.Undefined

def Refused (multiplier : Multiplier) : Prop := multiplier.Undefined ∨ multiplier.BelowZero

instance (multiplier : Multiplier) : Decidable multiplier.Undefined :=
  inferInstanceAs (Decidable (_ < _))

instance (multiplier : Multiplier) : Decidable multiplier.BelowZero :=
  inferInstanceAs (Decidable (_ ∧ _))

instance (multiplier : Multiplier) : Decidable multiplier.Refused :=
  inferInstanceAs (Decidable (_ ∨ _))

theorem spacing_pos (multiplier : Multiplier) : 0 < multiplier.spacing :=
  Nat.pow_pos Nat.two_pos

/-- Only the patterns of the two zeros have no units. -/
theorem units_eq_zero_iff (multiplier : Multiplier) :
    multiplier.significand * multiplier.spacing = 0 ↔ multiplier.bits.toNat % 0x80000000 = 0 := by
  have bound := multiplier.bits.toNat_lt
  rw [Nat.mul_eq_zero, or_iff_left (Nat.ne_of_gt multiplier.spacing_pos), significand, exponentField, fractionField,
    show Nat.pow 2 23 = 8388608 from rfl]
  split <;> omega

theorem accepted_iff (multiplier : Multiplier) : multiplier.accepted = true ↔ ¬ multiplier.Refused := by
  have bound := multiplier.bits.toNat_lt
  have zeros := multiplier.units_eq_zero_iff
  have signed : multiplier.negative = decide (0x80000000 ≤ multiplier.bits.toNat) := rfl
  rw [accepted, magnitude, signed, Refused, BelowZero, Undefined]
  generalize multiplier.significand * multiplier.spacing = units at zeros
  rw [exponentField, fractionField, show Nat.pow 2 23 = 8388608 from rfl]
  by_cases special : multiplier.bits.toNat / 8388608 % 256 = 255
  · by_cases infinite : multiplier.bits.toNat % 8388608 = 0
    · simp only [special, infinite, if_true, Bool.not_eq_true', decide_eq_false_iff_not]
      omega
    · simp only [special, infinite, if_true, if_false, Bool.false_eq_true, false_iff, not_not]
      omega
  · simp only [special, if_false, Bool.or_eq_true, beq_iff_eq, Bool.not_eq_true', decide_eq_false_iff_not, zeros]
    omega

theorem validate_of_refused {multiplier : Multiplier} (refused : multiplier.Refused) :
    multiplier.validate = .error ⟨multiplier⟩ := by
  rw [validate, if_neg]
  rw [accepted_iff]
  exact not_not_intro refused

theorem validate_of_not_refused {multiplier : Multiplier} (fine : ¬ multiplier.Refused) :
    multiplier.validate = .ok () := by
  rw [validate, if_pos (multiplier.accepted_iff.mpr fine)]

end Multiplier

/-! ## What a rescaling leaves -/

namespace Lru

open RecencyList

variable {κ α ρ : Type} [BEq κ] [Hashable κ]

structure Based (base : UInt64) (store : Lru κ α) : Prop where
  intact : Intact store
  base : store.budget.base = base

/-- What a store becomes whose base is multiplied: the limit depends on nothing else. -/
structure Rescaled (base : UInt64) (multiplier : Multiplier) (store : Lru κ α) (evicted : List (Entry κ α))
    (final : Lru κ α) : Prop where
  based : Based base final
  limit : final.limit = scaleSize base multiplier
  /-- The coldest entries leave, coldest first, and the others stay in their order. -/
  parted : store.entries = final.entries ++ evicted.reverse
  used : final.used.toNat = totalCost final.entries
  count : final.count = final.entries.length
  within : final.used ≤ final.limit
  /-- Wherever else the entries are parted, so that the fresher ones are within the limit, no fewer leave. -/
  fewest : ∀ fresher colder, store.entries = fresher ++ colder → totalCost fresher ≤ final.limit.toNat →
    evicted.length ≤ colder.length
  grown : store.limit ≤ final.limit → evicted = []

theorem of_limit_based (limit : UInt64) : Based limit (ofLimit limit : Lru κ α) where
  intact := of_limit_intact limit
  base := rfl

variable {base : UInt64} {store : Lru κ α}

theorem Based.agrees (based : Based base store) {actual : ρ × Lru κ α} {meant : ρ × RecencyList κ α}
    (agrees : Agrees actual meant) (same : meant.2.base = store.meaning.base) : Based base actual.2 where
  intact := agrees.intact
  base := (congrArg RecencyList.base agrees.state).trans (same.trans based.base)

theorem rescale_of_refused {multiplier : Multiplier} (refused : multiplier.Refused) (store : Lru κ α) :
    store.rescale multiplier = .error ⟨multiplier⟩ := by
  rw [rescale, Budget.rescale, multiplier.validate_of_refused refused]
  rfl

variable [EquivBEq κ] [LawfulHashable κ]

theorem Based.rescales (based : Based base store) {multiplier : Multiplier} (fine : ¬ multiplier.Refused) :
    ∃ evicted final, store.rescale multiplier = .ok (evicted, final) ∧ Rescaled base multiplier store evicted final := by
  have meant := rescale_of_valid (Multiplier.validate_of_not_refused fine) store.meaning
  rcases based.intact.rescale_agrees multiplier with ⟨invalid, _, refused⟩ | ⟨actual, meant', done, done', agrees⟩
  · rw [meant] at refused
    cases refused
  · rw [meant] at done'
    cases done'
    obtain ⟨evicted, final⟩ := actual
    obtain ⟨outcome, state, intact⟩ := agrees
    have sameBase : store.meaning.base = base := based.base
    rw [sameBase] at outcome state
    have limit : final.limit = scaleSize base multiplier := congrArg RecencyList.limit state
    have kept : final.entries = (split (scaleSize base multiplier).toNat store.entries).1 :=
      congrArg RecencyList.entries state
    have left : evicted = (split (scaleSize base multiplier).toNat store.entries).2 := outcome
    have parted : store.entries = final.entries ++ evicted.reverse := by
      rw [kept, left]
      exact (split_append_reverse _ _).symm
    refine ⟨evicted, final, done, ?_⟩
    constructor
    · exact ⟨intact, congrArg RecencyList.base state⟩
    · exact limit
    · exact parted
    · exact intact.exact_use
    · exact intact.exact_count
    · exact intact.withinLimit
    · intro fresher colder parted' within
      have leads : fresher <+: store.entries := ⟨colder, parted'.symm⟩
      rw [limit] at within
      have noLonger := longest_within_is_longest leads within
      have lengths := congrArg List.length (parted.symm.trans parted')
      rw [← show final.entries = longestWithin (scaleSize base multiplier).toNat store.entries from kept] at noLonger
      simp only [List.length_append, List.length_reverse] at lengths
      omega
    · intro atLeast
      have fits : totalCost store.entries ≤ (scaleSize base multiplier).toNat := by
        rw [limit, UInt64.le_iff_toNat_le] at atLeast
        exact Nat.le_trans based.intact.total_cost_le atLeast
      rw [left, split_of_within fits]

/-! ## What every operation keeps -/

omit [LawfulHashable κ] in
theorem Based.get (based : Based base store) (key : κ) : Based base (store.get key).2 := by
  apply based.agrees (based.intact.get_agrees key)
  rw [RecencyList.get]
  split <;> rfl

theorem Based.removed (based : Based base store) (key : κ) : Based base (store.remove key).2 :=
  based.agrees (based.intact.remove_agrees key) rfl

theorem Based.trimmedTo (based : Based base store) (target : UInt64) : Based base (store.trimTo target).2 :=
  based.agrees (based.intact.trim_agrees target) rfl

theorem Based.cleared (based : Based base store) : Based base store.clear.2 :=
  based.agrees based.intact.clear_agrees rfl

theorem Based.trimmed (based : Based base store) (pressure : Pressure) : Based base (store.trim pressure).2 := by
  rw [trim]
  cases pressure.retention with
  | everything => exact based
  | half => exact based.trimmedTo _
  | nothing => exact based.cleared

theorem Based.inserted (based : Based base store) (entry : Entry κ α) : Based base (store.insert entry).2 := by
  apply based.agrees (based.intact.insert_agrees entry)
  rw [RecencyList.insert]
  split <;> rfl

theorem Based.rescaled (based : Based base store) {multiplier : Multiplier} {outcome : List (Entry κ α) × Lru κ α}
    (done : store.rescale multiplier = .ok outcome) : Based base outcome.2 := by
  by_cases refused : multiplier.Refused
  · rw [rescale_of_refused refused] at done
    cases done
  · obtain ⟨evicted, final, done', rescaled⟩ := based.rescales refused
    rw [done] at done'
    cases done'
    exact rescaled.based

theorem Based.performed (based : Based base store) (operation : Operation κ α) :
    Based base (store.perform operation).2 := by
  cases operation with
  | insert entry => exact based.inserted entry
  | get key => exact based.get key
  | peek key => exact based
  | contains key => exact based
  | remove key => exact based.removed key
  | trimTo target => exact based.trimmedTo target
  | clear => exact based.cleared
  | rescale multiplier =>
      rw [perform]
      cases done : store.rescale multiplier with
      | error invalid => exact based
      | ok outcome => exact based.rescaled done

theorem Based.run (based : Based base store) (operations : List (Operation κ α)) :
    Based base (store.run operations).2 := by
  induction operations generalizing store with
  | nil => exact based
  | cons operation rest ih => exact ih (based.performed operation)

end Lru

end MemoryBudget
