import MemoryBudget.Pool.Buckets
import Mathlib.Data.List.Basic
import Mathlib.Tactic.Common

/-!
# Laws of buckets

What the buckets say about a shape is the list of its serial numbers. The order of shapes is lawful and total, so
that each shape has at most one bucket, and every change of a bucket is seen under its own shape and nowhere else.
-/

set_option autoImplicit false

namespace MemoryBudget

namespace Pool

/-- The least of the shapes that are present and not below the requested one; none if there is no such shape. -/
def LeastFrom {σ : Type} [Ord σ] (requested : σ) (present : σ → Prop) : Option σ → Prop
  | none => ∀ shape, present shape → compare shape requested = .lt
  | some least =>
      present least ∧ compare least requested ≠ .lt ∧
        ∀ shape, present shape → compare shape requested ≠ .lt → compare shape least ≠ .lt

theorem LeastFrom.unique {σ : Type} [Ord σ] [Std.TransOrd σ] [Std.LawfulEqOrd σ] {requested : σ}
    {present : σ → Prop} {one other : Option σ} (isLeast : LeastFrom requested present one)
    (isLeast' : LeastFrom requested present other) : one = other := by
  cases one with
  | none =>
      cases other with
      | none => rfl
      | some other => exact absurd (isLeast other isLeast'.1) isLeast'.2.1
  | some one =>
      cases other with
      | none => exact absurd (isLeast' one isLeast.1) isLeast.2.1
      | some other =>
          have notBelow := isLeast'.2.2 one isLeast.1 isLeast.2.1
          have notAbove := isLeast.2.2 other isLeast'.1 isLeast'.2.1
          cases order : compare one other with
          | lt => exact absurd order notBelow
          | eq => exact congrArg some (Std.LawfulEqOrd.eq_of_compare order)
          | gt => exact absurd (Std.OrientedCmp.lt_of_gt order) notAbove

namespace Buckets

variable {σ : Type} [Ord σ]

def serialsOf (buckets : Buckets σ) (shape : σ) : List Nat :=
  ((buckets.find? shape).map (·.serials)).getD []

structure Ordered (buckets : Buckets σ) : Prop where
  ascending : buckets.toList.Pairwise fun one other => compare one.shape other.shape = .lt
  inhabited : ∀ bucket ∈ buckets.toList, bucket.serials ≠ []

theorem Ordered.of_cons {bucket : Bucket σ} {rest : List (Bucket σ)}
    (ordered : Ordered ⟨bucket :: rest⟩) : Ordered ⟨rest⟩ where
  ascending := (List.pairwise_cons.mp ordered.ascending).2
  inhabited := fun other member => ordered.inhabited other (List.mem_cons_of_mem _ member)

theorem empty_ordered : Ordered (⟨[]⟩ : Buckets σ) where
  ascending := List.Pairwise.nil
  inhabited := fun _ none => nomatch none

@[simp] theorem serials_of_nil (shape : σ) : (⟨[]⟩ : Buckets σ).serialsOf shape = [] := rfl

theorem serials_of_least {bucket : Bucket σ} {rest : List (Bucket σ)} {shape : σ}
    (same : compare bucket.shape shape = .eq) :
    (⟨bucket :: rest⟩ : Buckets σ).serialsOf shape = bucket.serials := by
  simp [serialsOf, find?, same]

theorem serials_of_later {bucket : Bucket σ} {rest : List (Bucket σ)} {shape : σ}
    (different : compare bucket.shape shape ≠ .eq) :
    (⟨bucket :: rest⟩ : Buckets σ).serialsOf shape = (⟨rest⟩ : Buckets σ).serialsOf shape := by
  simp [serialsOf, find?, different]

theorem serials_of_absent {buckets : Buckets σ} {shape : σ}
    (absent : ∀ bucket ∈ buckets.toList, compare bucket.shape shape ≠ .eq) : buckets.serialsOf shape = [] := by
  have missing : buckets.find? shape = none := by
    rw [find?, List.find?_eq_none]
    intro bucket member
    simpa using absent bucket member
  rw [serialsOf, missing]
  rfl

theorem Ordered.find_is_some {buckets : Buckets σ} (ordered : Ordered buckets) (shape : σ) :
    (buckets.find? shape).isSome = true ↔ buckets.serialsOf shape ≠ [] := by
  cases found : buckets.find? shape with
  | none => simp [serialsOf, found]
  | some bucket =>
      have inhabited := ordered.inhabited bucket (List.mem_of_find?_eq_some found)
      simp [serialsOf, found, inhabited]

theorem pop_eq (buckets : Buckets σ) (shape : σ) :
    buckets.pop? shape =
      (buckets.serialsOf shape).head?.map fun newest => (newest, buckets.amend shape List.tail) := by
  rw [pop?, serialsOf]
  cases buckets.find? shape with
  | none => rfl
  | some bucket =>
      obtain ⟨_, serials⟩ := bucket
      cases serials <;> rfl

/-! ## Adding a serial number -/

theorem forall_push_in {P : σ → Prop} {shape : σ} {buckets : List (Bucket σ)} (serial : Nat)
    (new : P shape) (old : ∀ bucket ∈ buckets, P bucket.shape) :
    ∀ bucket ∈ pushIn shape serial buckets, P bucket.shape := by
  induction buckets with
  | nil =>
      intro bucket member
      rw [List.mem_singleton.mp member]
      exact new
  | cons first rest ih =>
      rw [List.forall_mem_cons] at old
      rw [pushIn]
      cases compare shape first.shape with
      | lt => exact List.forall_mem_cons.mpr ⟨new, List.forall_mem_cons.mpr old⟩
      | eq => exact List.forall_mem_cons.mpr ⟨old.1, old.2⟩
      | gt => exact List.forall_mem_cons.mpr ⟨old.1, ih old.2⟩

theorem push_in_inhabited (shape : σ) (serial : Nat) {buckets : List (Bucket σ)}
    (inhabited : ∀ bucket ∈ buckets, bucket.serials ≠ []) :
    ∀ bucket ∈ pushIn shape serial buckets, bucket.serials ≠ [] := by
  induction buckets with
  | nil => simp [pushIn]
  | cons first rest ih =>
      rw [List.forall_mem_cons] at inhabited
      rw [pushIn]
      cases compare shape first.shape with
      | lt => simpa using inhabited
      | eq => simpa using inhabited.2
      | gt => exact List.forall_mem_cons.mpr ⟨inhabited.1, ih inhabited.2⟩

variable [Std.TransOrd σ]

theorem push_in_ascending (shape : σ) (serial : Nat) {buckets : List (Bucket σ)}
    (ascending : buckets.Pairwise fun one other => compare one.shape other.shape = .lt) :
    (pushIn shape serial buckets).Pairwise fun one other => compare one.shape other.shape = .lt := by
  induction buckets with
  | nil => exact List.pairwise_singleton _ _
  | cons first rest ih =>
      obtain ⟨least, ascendingRest⟩ := List.pairwise_cons.mp ascending
      rw [pushIn]
      cases order : compare shape first.shape with
      | lt =>
          apply List.pairwise_cons.mpr
          refine ⟨List.forall_mem_cons.mpr ⟨order, ?_⟩, ascending⟩
          intro bucket member
          exact Std.TransCmp.lt_trans order (least bucket member)
      | eq => exact List.pairwise_cons.mpr ⟨least, ascendingRest⟩
      | gt =>
          apply List.pairwise_cons.mpr
          refine ⟨?_, ih ascendingRest⟩
          exact forall_push_in (P := fun other => compare first.shape other = .lt) serial
            (Std.OrientedCmp.lt_of_gt order) least

theorem Ordered.push {buckets : Buckets σ} (ordered : Ordered buckets) (shape : σ) (serial : Nat) :
    Ordered (buckets.push shape serial) where
  ascending := push_in_ascending shape serial ordered.ascending
  inhabited := push_in_inhabited shape serial ordered.inhabited

/-- A shape below the least bucket has none. -/
theorem Ordered.serials_of_below {bucket : Bucket σ} {rest : List (Bucket σ)}
    (ordered : Ordered ⟨bucket :: rest⟩) {shape : σ} (below : compare shape bucket.shape = .lt) :
    (⟨bucket :: rest⟩ : Buckets σ).serialsOf shape = [] := by
  apply serials_of_absent
  intro other member equal
  have above : compare shape other.shape = .lt := by
    rcases List.mem_cons.mp member with rfl | later
    · exact below
    · exact Std.TransCmp.lt_trans below ((List.pairwise_cons.mp ordered.ascending).1 other later)
  rw [Std.OrientedCmp.eq_symm equal] at above
  cases above

theorem Ordered.serials_of_least_rest {bucket : Bucket σ} {rest : List (Bucket σ)}
    (ordered : Ordered ⟨bucket :: rest⟩) : (⟨rest⟩ : Buckets σ).serialsOf bucket.shape = [] := by
  apply serials_of_absent
  intro other member equal
  have above := (List.pairwise_cons.mp ordered.ascending).1 other member
  rw [Std.OrientedCmp.eq_symm equal] at above
  cases above

/-! ## Changing a bucket -/

section Amend

variable {bucket : Bucket σ} {rest : List (Bucket σ)} {shape : σ} {change : List Nat → List Nat}

omit [Std.TransOrd σ]

theorem amend_of_other (different : compare bucket.shape shape ≠ .eq) :
    (⟨bucket :: rest⟩ : Buckets σ).amend shape change =
      ⟨bucket :: ((⟨rest⟩ : Buckets σ).amend shape change).toList⟩ := by
  simp [amend, different]

theorem amend_of_emptied (same : compare bucket.shape shape = .eq) (emptied : change bucket.serials = []) :
    (⟨bucket :: rest⟩ : Buckets σ).amend shape change = (⟨rest⟩ : Buckets σ).amend shape change := by
  simp [amend, same, emptied]

theorem amend_of_left (same : compare bucket.shape shape = .eq) (left : change bucket.serials ≠ []) :
    (⟨bucket :: rest⟩ : Buckets σ).amend shape change =
      ⟨{ bucket with serials := change bucket.serials } ::
        ((⟨rest⟩ : Buckets σ).amend shape change).toList⟩ := by
  cases changed : change bucket.serials with
  | nil => exact absurd changed left
  | cons serial serials => simp [amend, same, changed]

theorem forall_amend {P : Bucket σ → Prop} {buckets : List (Bucket σ)} (old : ∀ bucket ∈ buckets, P bucket)
    (changed : ∀ bucket ∈ buckets, change bucket.serials ≠ [] →
      P { bucket with serials := change bucket.serials }) :
    ∀ bucket ∈ ((⟨buckets⟩ : Buckets σ).amend shape change).toList, P bucket := by
  induction buckets with
  | nil => exact fun _ none => nomatch none
  | cons first rest ih =>
      rw [List.forall_mem_cons] at old changed
      have later := ih old.2 changed.2
      by_cases same : compare first.shape shape = .eq
      · by_cases emptied : change first.serials = []
        · rw [amend_of_emptied same emptied]
          exact later
        · rw [amend_of_left same emptied]
          exact List.forall_mem_cons.mpr ⟨changed.1 emptied, later⟩
      · rw [amend_of_other same]
        exact List.forall_mem_cons.mpr ⟨old.1, later⟩

theorem amend_ascending {buckets : List (Bucket σ)}
    (ascending : buckets.Pairwise fun one other => compare one.shape other.shape = .lt) :
    ((⟨buckets⟩ : Buckets σ).amend shape change).toList.Pairwise
      fun one other => compare one.shape other.shape = .lt := by
  induction buckets with
  | nil => exact List.Pairwise.nil
  | cons first rest ih =>
      obtain ⟨least, ascendingRest⟩ := List.pairwise_cons.mp ascending
      have later := ih ascendingRest
      have leastLater : ∀ bucket ∈ ((⟨rest⟩ : Buckets σ).amend shape change).toList,
          compare first.shape bucket.shape = .lt := forall_amend least fun bucket member _ => least bucket member
      by_cases same : compare first.shape shape = .eq
      · by_cases emptied : change first.serials = []
        · rw [amend_of_emptied same emptied]
          exact later
        · rw [amend_of_left same emptied]
          exact List.pairwise_cons.mpr ⟨leastLater, later⟩
      · rw [amend_of_other same]
        exact List.pairwise_cons.mpr ⟨leastLater, later⟩

end Amend

omit [Std.TransOrd σ] in
theorem Ordered.amend {buckets : Buckets σ} (ordered : Ordered buckets) (shape : σ)
    (change : List Nat → List Nat) : Ordered (buckets.amend shape change) where
  ascending := amend_ascending ordered.ascending
  inhabited := forall_amend ordered.inhabited fun _ _ left => left

/-! ## What is seen of a change -/

variable [Std.LawfulEqOrd σ] [DecidableEq σ]

omit [Std.TransOrd σ] in
theorem serials_of_cons (bucket : Bucket σ) (rest : List (Bucket σ)) (shape : σ) :
    (⟨bucket :: rest⟩ : Buckets σ).serialsOf shape =
      if shape = bucket.shape then bucket.serials else (⟨rest⟩ : Buckets σ).serialsOf shape := by
  by_cases same : shape = bucket.shape
  · rw [if_pos same]
    exact serials_of_least (Std.LawfulEqOrd.compare_eq_iff_eq.mpr same.symm)
  · rw [if_neg same]
    apply serials_of_later
    intro equal
    exact same (Std.LawfulEqOrd.eq_of_compare equal).symm

theorem Ordered.serials_of_push {buckets : Buckets σ} (ordered : Ordered buckets) (shape other : σ)
    (serial : Nat) :
    (buckets.push shape serial).serialsOf other =
      if other = shape then serial :: buckets.serialsOf shape else buckets.serialsOf other := by
  obtain ⟨buckets⟩ := buckets
  induction buckets with
  | nil => exact serials_of_cons ⟨shape, [serial]⟩ [] other
  | cons first rest ih =>
      have later := ih ordered.of_cons
      rw [Buckets.push] at later ⊢
      rw [pushIn]
      cases order : compare shape first.shape with
      | lt =>
          rw [ordered.serials_of_below order]
          exact serials_of_cons ⟨shape, [serial]⟩ (first :: rest) other
      | eq =>
          have same : shape = first.shape := Std.LawfulEqOrd.eq_of_compare order
          simp only [serials_of_cons, same, if_true]
          by_cases isFirst : other = first.shape <;> simp [isFirst]
      | gt =>
          have different : shape ≠ first.shape := by
            intro same
            rw [Std.LawfulEqOrd.compare_eq_iff_eq.mpr same] at order
            cases order
          simp only [serials_of_cons, if_neg different, later]
          by_cases isFirst : other = first.shape
          · rw [if_pos isFirst, if_pos isFirst, if_neg (isFirst ▸ different.symm)]
          · rw [if_neg isFirst, if_neg isFirst]

/-- A change that makes nothing out of nothing is seen under its own shape only. -/
theorem Ordered.serials_of_amend {buckets : Buckets σ} (ordered : Ordered buckets) (shape other : σ)
    {change : List Nat → List Nat} (nothing : change [] = []) :
    (buckets.amend shape change).serialsOf other =
      if other = shape then change (buckets.serialsOf shape) else buckets.serialsOf other := by
  obtain ⟨buckets⟩ := buckets
  induction buckets with
  | nil =>
      rw [serials_of_nil, serials_of_nil, nothing, ite_self]
      rfl
  | cons first rest ih =>
      have later := ih ordered.of_cons
      by_cases same : compare first.shape shape = .eq
      · have isShape : first.shape = shape := Std.LawfulEqOrd.eq_of_compare same
        have noneLater : (⟨rest⟩ : Buckets σ).serialsOf shape = [] := isShape ▸ ordered.serials_of_least_rest
        rw [noneLater, nothing] at later
        rw [serials_of_least same]
        by_cases emptied : change first.serials = []
        · rw [amend_of_emptied same emptied, later, emptied, serials_of_cons, isShape]
          split_ifs <;> rfl
        · rw [amend_of_left same emptied, serials_of_cons, serials_of_cons, later]
          simp only [isShape]
          split_ifs <;> rfl
      · have different : shape ≠ first.shape := by
          intro isShape
          exact same (Std.LawfulEqOrd.compare_eq_iff_eq.mpr isShape.symm)
        rw [amend_of_other same, serials_of_cons, later, serials_of_cons, serials_of_cons, if_neg different]
        by_cases isFirst : other = first.shape
        · rw [if_pos isFirst, if_pos isFirst, if_neg (isFirst ▸ different.symm)]
        · rw [if_neg isFirst, if_neg isFirst]

/-! ## The least shape from a request on -/

omit [Std.TransOrd σ] [DecidableEq σ] in
theorem Ordered.resident_iff {buckets : Buckets σ} (ordered : Ordered buckets) (shape : σ) :
    buckets.serialsOf shape ≠ [] ↔ ∃ bucket ∈ buckets.toList, bucket.shape = shape := by
  rw [← ordered.find_is_some shape, find?, List.find?_isSome]
  simp only [Std.LawfulEqOrd.compare_beq_iff_eq]

omit [DecidableEq σ] in
theorem Ordered.least_from {buckets : Buckets σ} (ordered : Ordered buckets) (requested : σ) :
    LeastFrom requested (fun shape => buckets.serialsOf shape ≠ []) (buckets.leastFrom? requested) := by
  rw [leastFrom?]
  cases found : buckets.toList.find? fun bucket => compare bucket.shape requested != .lt with
  | none =>
      intro shape resident
      obtain ⟨bucket, member, rfl⟩ := (ordered.resident_iff shape).mp resident
      simpa using List.find?_eq_none.mp found bucket member
  | some least =>
      obtain ⟨notBelow, lower, higher, parted, below⟩ := List.find?_eq_some_iff_append.mp found
      have ascending := ordered.ascending
      rw [parted, List.pairwise_append, List.pairwise_cons] at ascending
      constructor
      · exact (ordered.resident_iff _).mpr ⟨least, List.mem_of_find?_eq_some found, rfl⟩
      constructor
      · simpa using notBelow
      · intro shape resident fromRequest
        obtain ⟨bucket, member, rfl⟩ := (ordered.resident_iff shape).mp resident
        rw [parted] at member
        rcases List.mem_append.mp member with isLower | isLater
        · exact absurd (by simpa using below bucket isLower) fromRequest
        · rcases List.mem_cons.mp isLater with rfl | isHigher
          · rw [Std.ReflOrd.compare_self]
            exact nofun
          · exact Std.OrientedCmp.not_lt_of_lt (ascending.2.1.1 bucket isHigher)

/-! ## What the serial numbers determine -/

omit [DecidableEq σ] in
/-- The least bucket of the one has a serial number that the other must have too. -/
theorem Ordered.least_not_below {bucket bucket' : Bucket σ} {rest rest' : List (Bucket σ)}
    (ordered : Ordered ⟨bucket :: rest⟩) (ordered' : Ordered ⟨bucket' :: rest'⟩)
    (same : ∀ shape, (⟨bucket :: rest⟩ : Buckets σ).serialsOf shape = (⟨bucket' :: rest'⟩ : Buckets σ).serialsOf shape) :
    compare bucket.shape bucket'.shape ≠ .lt := by
  intro below
  have none := same bucket.shape
  rw [serials_of_least Std.ReflOrd.compare_self, ordered'.serials_of_below below] at none
  exact ordered.inhabited bucket List.mem_cons_self none

omit [DecidableEq σ] in
/-- Buckets are determined by the serial numbers of each shape. -/
theorem Ordered.ext {buckets buckets' : List (Bucket σ)} (ordered : Ordered ⟨buckets⟩) (ordered' : Ordered ⟨buckets'⟩)
    (same : ∀ shape, (⟨buckets⟩ : Buckets σ).serialsOf shape = (⟨buckets'⟩ : Buckets σ).serialsOf shape) :
    buckets = buckets' := by
  induction buckets generalizing buckets' with
  | nil =>
      cases buckets' with
      | nil => rfl
      | cons bucket' rest' =>
          have none := same bucket'.shape
          rw [serials_of_least Std.ReflOrd.compare_self] at none
          exact absurd none.symm (ordered'.inhabited bucket' List.mem_cons_self)
  | cons bucket rest ih =>
      cases buckets' with
      | nil =>
          have none := same bucket.shape
          rw [serials_of_least Std.ReflOrd.compare_self] at none
          exact absurd none (ordered.inhabited bucket List.mem_cons_self)
      | cons bucket' rest' =>
          have sameShape : bucket.shape = bucket'.shape := by
            cases order : compare bucket.shape bucket'.shape with
            | lt => exact absurd order (ordered.least_not_below ordered' same)
            | eq => exact Std.LawfulEqOrd.eq_of_compare order
            | gt =>
                exact absurd (Std.OrientedCmp.lt_of_gt order) (ordered'.least_not_below ordered fun shape => (same shape).symm)
          have sameSerials := same bucket.shape
          rw [serials_of_least Std.ReflOrd.compare_self,
            serials_of_least (Std.LawfulEqOrd.compare_eq_iff_eq.mpr sameShape.symm)] at sameSerials
          have sameRest : rest = rest' := by
            apply ih ordered.of_cons ordered'.of_cons
            intro shape
            by_cases first : shape = bucket.shape
            · rw [first, ordered.serials_of_least_rest, sameShape, ordered'.serials_of_least_rest]
            · have among := same shape
              rw [serials_of_later (fun order => first (Std.LawfulEqOrd.eq_of_compare order).symm),
                serials_of_later (fun order => first (sameShape ▸ (Std.LawfulEqOrd.eq_of_compare order).symm))] at among
              exact among
          rw [sameRest]
          cases bucket
          cases bucket'
          cases sameShape
          cases sameSerials
          rfl

end Buckets

end Pool

end MemoryBudget
