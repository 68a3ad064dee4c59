import MemoryBudget.Proofs.Cache.Steps
import MemoryBudget.Shared.Basic

/-!
# Departures

Which handles leave a cache of shared values, told by the entries before and afterwards. A handle to the same allocation
under the same key takes the place of the other one, which does not count as gone.
-/

set_option autoImplicit false

namespace MemoryBudget

namespace Shared

open RecencyList Lru Cache

variable {κ ν ℓ : Type}

/-- The handles of the entries that are gone: no entry that is there afterwards holds the same allocation under the same
key. -/
def departed [BEq κ] (before after : List (Entry κ Handle)) : List Handle :=
  values (before.filter fun entry => !after.any fun other => other.key == entry.key && other.value == entry.value)

/-- Whatever leaves because of a call is to be reported, unless it is removed. -/
def released [BEq κ] (request : Call κ ν ℓ) (before after : List (Entry κ Handle)) : List Handle :=
  match request with
  | .remove _ => []
  | _ => departed before after

variable {before after gone stay : List (Entry κ Handle)}

theorem values_parted (parted : before.Perm (gone ++ stay))
    (elsewhere : List Handle) : (values before ++ elsewhere).Perm (values stay ++ (values gone ++ elsewhere)) := by
  have parted' : (values before).Perm (values stay ++ values gone) := by
    unfold values
    rw [← List.map_append]
    exact (parted.trans List.perm_append_comm).map _
  rw [← List.append_assoc]
  exact parted'.append_right elsewhere

variable [BEq κ]

theorem departed_of_parted (parted : before.Perm (gone ++ stay))
    (left : ∀ entry ∈ gone, ∀ other ∈ after, (other.key == entry.key) = true → (other.value == entry.value) = false)
    (stayed : ∀ entry ∈ stay,
      ∃ other ∈ after, (other.key == entry.key) = true ∧ (other.value == entry.value) = true) :
    (departed before after).Perm (values gone) := by
  unfold departed values
  apply List.Perm.map
  apply (parted.filter _).trans
  rw [List.filter_append, List.filter_eq_self.mpr, List.filter_eq_nil_iff.mpr, List.append_nil]
  · intro entry member
    obtain ⟨other, present, sameKey, sameValue⟩ := stayed entry member
    have found : after.any (fun other => other.key == entry.key && other.value == entry.value) = true :=
      List.any_eq_true.mpr ⟨other, present, by rw [sameKey, sameValue, Bool.and_self]⟩
    rw [found]
    exact Bool.false_ne_true
  · intro entry member
    have missing : after.any (fun other => other.key == entry.key && other.value == entry.value) = false := by
      apply List.any_eq_false.mpr
      intro other present both
      rw [Bool.and_eq_true] at both
      have different := left entry member other present both.1
      rw [both.2] at different
      cases different
    rw [missing]
    rfl

/-- Nothing departs from under a key if what is there afterwards is the same. -/
theorem departed_sublist {key : κ}
    (stays : ∀ entry ∈ before, (entry.key == key) = true →
      ∃ other ∈ after, (other.key == entry.key) = true ∧ (other.value == entry.value) = true) :
    (departed before after).Sublist (values (before.filter (!·.key == key))) := by
  unfold departed values
  apply List.Sublist.map
  have others : ∀ entry ∈ before, (!after.any fun other => other.key == entry.key && other.value == entry.value) =
      ((!after.any fun other => other.key == entry.key && other.value == entry.value) && !entry.key == key) := by
    intro entry member
    cases sameKey : entry.key == key with
    | false => exact (Bool.and_true _).symm
    | true =>
        obtain ⟨other, present, same, sameValue⟩ := stays entry member sameKey
        have found : after.any (fun other => other.key == entry.key && other.value == entry.value) = true :=
          List.any_eq_true.mpr ⟨other, present, by rw [same, sameValue, Bool.and_self]⟩
        rw [found]
        rfl
  rw [List.filter_congr others, ← List.filter_filter]
  exact List.filter_sublist

variable [EquivBEq κ]

theorem same_handle (handle : Handle) : (handle == handle) = true :=
  beq_self_eq_true handle.allocation

theorem handle_beq_comm (one other : Handle) : (one == other) = (other == one) :=
  BEq.comm (a := one.allocation) (b := other.allocation)

theorem stays_as_it_is {entry : Entry κ Handle} (member : entry ∈ after) :
    ∃ other ∈ after, (other.key == entry.key) = true ∧ (other.value == entry.value) = true :=
  ⟨entry, member, BEq.refl _, same_handle _⟩

theorem departed_of_perm (same : after.Perm before) : departed before after = [] := by
  have nothing : (departed before after).Perm (values ([] : List (Entry κ Handle))) := by
    apply departed_of_parted (List.Perm.refl before)
    · intro entry member
      nomatch member
    · intro entry member
      exact stays_as_it_is (same.symm.subset member)
  exact nothing.eq_nil

theorem departed_of_evicted {evicted : List (Entry κ Handle)} (distinct : DistinctKeys before)
    (parted : before = after ++ evicted.reverse) : (departed before after).Perm (values evicted) := by
  have divided : before.Perm (evicted ++ after) := by
    rw [parted]
    exact List.perm_append_comm.trans ((List.reverse_perm evicted).append_right after)
  apply departed_of_parted divided
  · intro entry member other present sameKey
    rw [parted, DistinctKeys, List.pairwise_append] at distinct
    have different := distinct.2.2 other present entry (List.mem_reverse.mpr member)
    rw [sameKey] at different
    cases different
  · intro entry member
    exact stays_as_it_is member

/-- An entry makes way for a handle to another allocation. A handle to the same allocation takes its place. -/
theorem departed_of_admitted {evicted kept : List (Entry κ Handle)} {offered : Entry κ Handle}
    (distinct : DistinctKeys before) (fresh : after = offered :: kept)
    (parted : before.filter (!·.key == offered.key) = kept ++ evicted.reverse) :
    (departed before after).Perm
      (values (((before.find? (·.key == offered.key)).filter (·.value != offered.value)).toList ++ evicted)) := by
  have divided := perm_find_others distinct offered.key
  rw [parted] at divided
  have otherKeys : ∀ other ∈ kept ++ evicted.reverse, (other.key == offered.key) = false := by
    intro other member
    rw [← parted] at member
    simpa using (List.mem_filter.mp member).2
  -- What is evicted leaves no other entry under its key.
  have gone : ∀ entry ∈ evicted, ∀ other ∈ after, (other.key == entry.key) = true →
      (other.value == entry.value) = false := by
    intro entry member other present sameKey
    have apart : (other.key == entry.key) = false := by
      rw [fresh] at present
      rcases List.mem_cons.mp present with rfl | stayed
      · rw [BEq.comm]
        exact otherKeys entry (List.mem_append_right _ (List.mem_reverse.mpr member))
      · have distinct' : DistinctKeys (kept ++ evicted.reverse) := by
          rw [← parted]
          exact List.Pairwise.filter _ distinct
        exact (List.pairwise_append.mp distinct').2.2 other stayed entry (List.mem_reverse.mpr member)
    rw [apart] at sameKey
    cases sameKey
  have stays : ∀ entry ∈ kept,
      ∃ other ∈ after, (other.key == entry.key) = true ∧ (other.value == entry.value) = true := by
    intro entry member
    apply stays_as_it_is
    rw [fresh]
    exact List.mem_cons_of_mem _ member
  have evictedLast : ∀ first : List (Entry κ Handle),
      (first ++ (kept ++ evicted.reverse)).Perm (evicted ++ (first ++ kept)) := by
    intro first
    rw [← List.append_assoc]
    exact List.perm_append_comm.trans ((List.reverse_perm evicted).append_right _)
  cases found : before.find? (·.key == offered.key) with
  | none =>
      rw [found] at divided
      exact departed_of_parted (divided.trans (evictedLast [])) gone stays
  | some previous =>
      rw [found] at divided
      have sameKey : (previous.key == offered.key) = true := by simpa using List.find?_some found
      have offeredIn : offered ∈ after := by
        rw [fresh]
        exact List.mem_cons_self
      cases sameValue : previous.value == offered.value with
      | true =>
          have refreshed : (some previous).filter (·.value != offered.value) = none := by
            simp [bne, sameValue]
          rw [refreshed]
          rw [handle_beq_comm] at sameValue
          apply departed_of_parted (divided.trans (evictedLast [previous])) gone
          intro entry member
          rcases List.mem_cons.mp member with rfl | stayed
          · exact ⟨offered, offeredIn, BEq.symm sameKey, sameValue⟩
          · exact stays entry stayed
      | false =>
          have displaced : (some previous).filter (·.value != offered.value) = some previous := by
            simp [bne, sameValue]
          have displacedFirst : ((some previous).toList ++ (kept ++ evicted.reverse)).Perm
              ((some previous).toList ++ evicted ++ kept) := by
            rw [List.append_assoc]
            exact (evictedLast []).append_left _
          rw [displaced]
          apply departed_of_parted (divided.trans displacedFirst) _ stays
          · intro entry member other present same
            rcases List.mem_cons.mp member with rfl | left
            · rw [fresh] at present
              rcases List.mem_cons.mp present with rfl | stayed
              · rw [handle_beq_comm]
                exact sameValue
              · rw [beq_key_congr sameKey] at same
                rw [otherKeys other (List.mem_append_left _ stayed)] at same
                cases same
            · exact gone entry left other present same

end Shared

end MemoryBudget
