import MemoryBudget.Pool.Stock
import MemoryBudget.Proofs.Numeric.Rounding
import Mathlib.Algebra.Order.Monoid.Unbundled.WithTop
import Mathlib.Algebra.Order.Floor.Semifield
import Mathlib.Data.Rat.Floor

/-!
# Scaling in exact arithmetic

What a multiplier stands for is a rational number or infinity. A limit is the base times that number, rounded three
times: the base and the product to fifty-three bits, the result to a whole number. It grows with the base and with the
multiplier, and as long as the base is small enough only the last rounding is felt. Half of a limit is taken likewise.
-/

set_option autoImplicit false

namespace MemoryBudget

/-! ## What multipliers stand for -/

namespace Multiplier

/-- The number of a pattern that is neither infinite nor undefined. Its leading bit is a one that is not written, save
below the normal range. -/
def number (multiplier : Multiplier) : ℚ :=
  (if multiplier.negative then -1 else 1) *
    (((if multiplier.exponentField = 0 then 0 else 1) + multiplier.fractionField / 2 ^ 23) *
      2 ^ (max (multiplier.exponentField : ℤ) 1 - 127))

/-- What a pattern stands for: a number or an infinity, unless it is undefined. -/
def reading (multiplier : Multiplier) : Option (WithBot (WithTop ℚ)) :=
  if multiplier.exponentField = 255 then
    if multiplier.fractionField = 0 then some (if multiplier.negative then ⊥ else ⊤) else none
  else
    some ((multiplier.number : WithTop ℚ) : WithBot (WithTop ℚ))

def units (multiplier : Multiplier) : ℕ := multiplier.significand * multiplier.spacing

theorem units_eq (multiplier : Multiplier) : (multiplier.units : ℚ) * 2 ^ (-149 : ℤ) =
    multiplier.significand * 2 ^ (max (multiplier.exponentField : ℤ) 1 - 150) := by
  rw [units, spacing, show Nat.pow 2 (multiplier.exponentField - 1) = 2 ^ (multiplier.exponentField - 1) from rfl]
  push_cast
  rw [mul_assoc, ← zpow_natCast, ← zpow_add₀ two_ne_zero]
  congr 2
  omega

/-- A number is a whole number of units. -/
theorem number_eq_units (multiplier : Multiplier) :
    multiplier.number = (if multiplier.negative then -1 else 1) * (multiplier.units * 2 ^ (-149 : ℤ)) := by
  have leading : ((if multiplier.exponentField = 0 then 0 else 1 : ℚ) + multiplier.fractionField / 2 ^ 23) =
      multiplier.significand * 2 ^ (-23 : ℤ) := by
    rw [significand, show Nat.pow 2 23 = 2 ^ 23 from rfl]
    split_ifs <;> push_cast <;> norm_num <;> ring
  rw [number, units_eq, leading, mul_assoc (multiplier.significand : ℚ), ← zpow_add₀ two_ne_zero,
    show (-23 : ℤ) + (max (multiplier.exponentField : ℤ) 1 - 127) = max (multiplier.exponentField : ℤ) 1 - 150 by ring]

/-- A multiplier that is not below zero is its units, whatever its sign. -/
theorem number_of_nonneg {multiplier : Multiplier} (nonneg : 0 ≤ multiplier.number) :
    multiplier.number = multiplier.units * 2 ^ (-149 : ℤ) := by
  have unsigned : (0 : ℚ) ≤ multiplier.units * 2 ^ (-149 : ℤ) := by positivity
  rw [number_eq_units] at nonneg ⊢
  split_ifs at nonneg ⊢
  · linarith
  · exact one_mul _

theorem number_nonneg_iff (multiplier : Multiplier) :
    0 ≤ multiplier.number ↔ multiplier.units = 0 ∨ multiplier.negative = false := by
  have unit : (0 : ℚ) < 2 ^ (-149 : ℤ) := two_zpow_pos _
  rw [number_eq_units]
  cases multiplier.negative
  · simp only [Bool.false_eq_true, if_false, one_mul, or_true, iff_true]
    positivity
  · simp only [if_true, Bool.true_eq_false, or_false]
    rw [neg_one_mul, neg_nonneg, ← zero_mul (2 ^ (-149 : ℤ) : ℚ), mul_le_mul_iff_left₀ unit]
    exact_mod_cast Nat.le_zero

theorem significand_lt (multiplier : Multiplier) : multiplier.significand < 2 ^ 24 := by
  have fraction : multiplier.fractionField < 2 ^ 23 := Nat.mod_lt _ (by decide)
  rw [significand, show Nat.pow 2 23 = 2 ^ 23 from rfl]
  split_ifs <;> omega

/-- A number has twenty-four bits. -/
theorem number_significant {multiplier : Multiplier} (nonneg : 0 ≤ multiplier.number) :
    Significant 24 multiplier.number := by
  rw [number_of_nonneg nonneg, units_eq]
  exact significant_of_lt multiplier.significand_lt _

/-- A multiplier is accepted if it stands for something that is at least zero. -/
theorem accepted_iff_reading (multiplier : Multiplier) :
    multiplier.accepted = true ↔ ∃ value, multiplier.reading = some value ∧ 0 ≤ value := by
  rw [accepted, magnitude, reading]
  by_cases special : multiplier.exponentField = 255
  · by_cases infinite : multiplier.fractionField = 0
    · simp only [special, infinite, if_true]
      cases multiplier.negative <;> simp
    · simp [special, infinite]
  · simp only [special, if_false, Option.some.injEq, exists_eq_left']
    rw [show (0 : WithBot (WithTop ℚ)) = ((0 : ℚ) : WithTop ℚ) from rfl, WithBot.coe_le_coe, WithTop.coe_le_coe,
      number_nonneg_iff, units]
    simp

end Multiplier

/-! ## What a size times a number comes to -/

/-- The product of a size and a number: the size is converted, the product is rounded, and then it is rounded to a whole
number, a half going up, which is cut at the largest size. -/
def ScalesTo (size : UInt64) (factor : ℚ) (result : UInt64) : Prop :=
  ∃ converted product : ℚ, RoundsTo size.toNat converted ∧ RoundsTo (converted * factor) product ∧
    result.toNat = min ⌊product + 1 / 2⌋₊ (2 ^ 64 - 1)

/-- Half of a size: the size is converted, the product is rounded, and what is behind the point is dropped. -/
def HalvesTo (size result : UInt64) : Prop :=
  ∃ converted product : ℚ, RoundsTo size.toNat converted ∧ RoundsTo (converted * (1 / 2)) product ∧
    result.toNat = min ⌊product⌋₊ (2 ^ 64 - 1)

theorem to_nat_of_at_most_largest (number : ℕ) :
    (UInt64.ofNat (min number largestSize)).toNat = min number (2 ^ 64 - 1) := by
  rw [show largestSize = 2 ^ 64 - 1 from rfl, UInt64.toNat_ofNat']
  omega

theorem scale_size_of_finite {multiplier : Multiplier} (finite : multiplier.exponentField ≠ 255) (size : UInt64) :
    scaleSize size multiplier = UInt64.ofNat (min ((roundSignificant (roundSignificant size.toNat * multiplier.units) +
      Nat.pow 2 148) / Nat.pow 2 149) largestSize) := by
  rw [scaleSize, Multiplier.magnitude, if_neg finite]
  rfl

theorem scale_size_scales {multiplier : Multiplier} (finite : multiplier.exponentField ≠ 255)
    (nonneg : 0 ≤ multiplier.number) (size : UInt64) :
    ScalesTo size multiplier.number (scaleSize size multiplier) := by
  refine ⟨roundSignificant size.toNat, roundSignificant (roundSignificant size.toNat * multiplier.units) * 2 ^ (-149 : ℤ),
    round_significant_rounds _, ?_, ?_⟩
  · rw [Multiplier.number_of_nonneg nonneg, ← mul_assoc]
    exact_mod_cast (round_significant_rounds _).scaled (-149)
  · rw [scale_size_of_finite finite, to_nat_of_at_most_largest]
    congr 1
    generalize roundSignificant (roundSignificant size.toNat * multiplier.units) = product
    have quotient : (product : ℚ) * 2 ^ (-149 : ℤ) + 1 / 2 = (product + 2 ^ 148 : ℕ) / (2 ^ 149 : ℕ) := by
      rw [zpow_neg]
      push_cast
      norm_num
      ring
    rw [quotient, Nat.floor_div_eq_div]
    rfl

theorem half_size_halves (size : UInt64) : HalvesTo size (halfSize size) := by
  have converts := round_significant_rounds size.toNat
  refine ⟨roundSignificant size.toNat, roundSignificant size.toNat * (1 / 2), converts, ?_, ?_⟩
  · rw [show (1 / 2 : ℚ) = 2 ^ (-1 : ℤ) by norm_num]
    exact .of_significant (converts.significant.scaled _)
  · rw [halfSize, to_nat_of_at_most_largest]
    congr 1
    rw [mul_one_div]
    exact_mod_cast (Nat.floor_div_eq_div (K := ℚ) (roundSignificant size.toNat) 2).symm

section Laws

variable {size size' result result' : UInt64} {factor factor' : ℚ}

theorem ScalesTo.mono (scales : ScalesTo size factor result) (scales' : ScalesTo size' factor' result')
    (nonneg : 0 ≤ factor) (sizes : size ≤ size') (factors : factor ≤ factor') : result ≤ result' := by
  obtain ⟨converted, product, converts, rounds, same⟩ := scales
  obtain ⟨converted', product', converts', rounds', same'⟩ := scales'
  have exact : (size.toNat : ℚ) ≤ size'.toNat := by exact_mod_cast UInt64.le_iff_toNat_le.mp sizes
  have order : converted ≤ converted' := converts.mono converts' exact
  have products : product ≤ product' := by
    apply rounds.mono rounds'
    exact mul_le_mul order factors nonneg converts'.significant.nonneg
  rw [UInt64.le_iff_toNat_le, same, same']
  exact min_le_min_right _ (Nat.floor_le_floor (add_le_add_left products _))

/-- If neither the size nor the product has too many bits, only the last rounding is felt. -/
theorem ScalesTo.exact (scales : ScalesTo size factor result) (few : Significant 53 (size.toNat : ℚ))
    (few' : Significant 53 (size.toNat * factor)) :
    result.toNat = min ⌊size.toNat * factor + 1 / 2⌋₊ (2 ^ 64 - 1) := by
  obtain ⟨converted, product, converts, rounds, same⟩ := scales
  obtain rfl := converts.unique (.of_significant few)
  obtain rfl := rounds.unique (.of_significant few')
  exact same

theorem HalvesTo.exact (halves : HalvesTo size result) (few : size.toNat ≤ 2 ^ 53) :
    result.toNat = size.toNat / 2 := by
  obtain ⟨converted, product, converts, rounds, same⟩ := halves
  have significant : Significant 53 (size.toNat : ℚ) := significant_of_nat few
  obtain rfl := converts.unique (.of_significant significant)
  have halved : Significant 53 ((size.toNat : ℚ) * (1 / 2)) := by
    rw [show (1 / 2 : ℚ) = 2 ^ (-1 : ℤ) by norm_num]
    exact significant.scaled _
  obtain rfl := rounds.unique (.of_significant halved)
  have floor : ⌊(size.toNat : ℚ) * (1 / 2)⌋₊ = size.toNat / 2 := by
    rw [mul_one_div]
    exact_mod_cast Nat.floor_div_eq_div (K := ℚ) size.toNat 2
  rw [same, floor]
  omega

end Laws

structure Multiplied (base : UInt64) (value : WithBot (WithTop ℚ)) (limit : UInt64) : Prop where
  number : ∀ factor : ℚ, value = (factor : WithTop ℚ) → ScalesTo base factor limit
  infinity : value = ⊤ → limit.toNat = if base = 0 then 0 else 2 ^ 64 - 1
  /-- A small base is multiplied exactly. -/
  exact : ∀ factor : ℚ, value = (factor : WithTop ℚ) → base.toNat < 2 ^ 29 →
    limit.toNat = min ⌊base.toNat * factor + 1 / 2⌋₊ (2 ^ 64 - 1)
  unscaled : value = 1 → base.toNat ≤ 2 ^ 53 → limit = base

structure Halved (size half : UInt64) : Prop where
  halves : HalvesTo size half
  within : half ≤ size
  exact : size.toNat ≤ 2 ^ 53 → half.toNat = size.toNat / 2

theorem half_size_halved (size : UInt64) : Halved size (halfSize size) where
  halves := half_size_halves size
  within := by
    have double : roundSignificant size.toNat ≤ 2 * size.toNat := by
      exact_mod_cast (round_significant_rounds size.toNat).le_double (Nat.cast_nonneg _)
    rw [UInt64.le_iff_toNat_le, halfSize, to_nat_of_at_most_largest]
    omega
  exact := (half_size_halves size).exact

/-- What is at least zero is a number or infinity. -/
theorem number_or_infinity {value : WithBot (WithTop ℚ)} (nonneg : 0 ≤ value) :
    value = ⊤ ∨ ∃ factor : ℚ, value = (factor : WithTop ℚ) ∧ 0 ≤ factor := by
  cases value with
  | bot => exact absurd nonneg (by simp)
  | coe value =>
      cases value with
      | top => exact Or.inl rfl
      | coe factor =>
          rw [show (0 : WithBot (WithTop ℚ)) = ((0 : ℚ) : WithTop ℚ) from rfl, WithBot.coe_le_coe,
            WithTop.coe_le_coe] at nonneg
          exact Or.inr ⟨factor, rfl, nonneg⟩

namespace Multiplied

variable {base base' limit limit' : UInt64} {value value' : WithBot (WithTop ℚ)}

/-- Nothing times anything is nothing, infinity included. -/
theorem nothing (multiplied : Multiplied 0 value limit) (nonneg : 0 ≤ value) : limit.toNat = 0 := by
  rcases number_or_infinity nonneg with rfl | ⟨factor, rfl, _⟩
  · exact multiplied.infinity rfl
  · rw [multiplied.exact factor rfl (by decide)]
    norm_num

theorem mono (multiplied : Multiplied base value limit) (multiplied' : Multiplied base' value' limit')
    (nonneg : 0 ≤ value) (bases : base ≤ base') (values : value ≤ value') : limit ≤ limit' := by
  rcases number_or_infinity (nonneg.trans values) with rfl | ⟨factor', rfl, _⟩
  · by_cases unbased : base' = 0
    · obtain rfl : base = 0 := UInt64.le_zero_iff.mp (unbased ▸ bases)
      rw [UInt64.le_iff_toNat_le, multiplied.nothing nonneg]
      exact Nat.zero_le _
    · rw [UInt64.le_iff_toNat_le, multiplied'.infinity rfl, if_neg unbased]
      have := limit.toNat_lt
      omega
  · rcases number_or_infinity nonneg with rfl | ⟨factor, rfl, positive⟩
    · exact absurd values (by simp)
    · apply (multiplied.number factor rfl).mono (multiplied'.number factor' rfl) positive bases
      exact WithTop.coe_le_coe.mp (WithBot.coe_le_coe.mp values)

end Multiplied

theorem scale_size_multiplied {multiplier : Multiplier} {value : WithBot (WithTop ℚ)}
    (reads : multiplier.reading = some value) (nonneg : 0 ≤ value) (base : UInt64) :
    Multiplied base value (scaleSize base multiplier) := by
  rw [Multiplier.reading] at reads
  split_ifs at reads with special infinite negative
  · cases reads
    exact absurd nonneg (by simp)
  · cases reads
    have scaled : scaleSize base multiplier = if base = 0 then 0 else UInt64.ofNat largestSize := by
      rw [scaleSize, Multiplier.magnitude, if_pos special, if_pos infinite]
    refine ⟨nofun, fun _ => ?_, nofun, nofun⟩
    rw [scaled]
    split_ifs <;> rfl
  · cases reads
    have positive : 0 ≤ multiplier.number := WithTop.coe_le_coe.mp (WithBot.coe_le_coe.mp nonneg)
    have scales := scale_size_scales special positive base
    constructor
    · intro factor same
      cases same
      exact scales
    · exact nofun
    · intro factor same few
      cases same
      have significant : Significant 29 (base.toNat : ℚ) := ⟨base.toNat, 0, few, by simp⟩
      have whole : Significant 53 (base.toNat : ℚ) := significant_of_nat (few.le.trans (by decide))
      exact scales.exact whole (significant.mul (Multiplier.number_significant positive))
    · intro same few
      have unscaled : multiplier.number = 1 := WithTop.coe_injective (WithBot.coe_injective same)
      have significant : Significant 53 (base.toNat : ℚ) := significant_of_nat few
      have limit := scales.exact significant (by rwa [unscaled, mul_one])
      have floor : ⌊(base.toNat : ℚ) * multiplier.number + 1 / 2⌋₊ = base.toNat := by
        rw [unscaled, mul_one, Nat.floor_eq_iff (by positivity)]
        constructor <;> linarith
      have bound := base.toNat_lt
      rw [floor] at limit
      rw [← UInt64.toNat_inj]
      omega

/-! ## Rescaling -/

theorem Budget.rescale_eq_ok_iff {budget scaled : Budget} {multiplier : Multiplier} :
    budget.rescale multiplier = .ok scaled ↔
      multiplier.accepted = true ∧ scaled = { budget with limit := scaleSize budget.base multiplier } := by
  rw [rescale, Multiplier.validate]
  split_ifs with accepted
  · simp [accepted, bind, Except.bind, pure, Except.pure, eq_comm]
  · simp [accepted, bind, Except.bind]

/-- Only what stands for zero or more is accepted, and the limit is then what it makes of the base. -/
theorem Budget.rescales (budget : Budget) (multiplier : Multiplier) :
    (∀ value, multiplier.reading = some value → 0 ≤ value → ∃ limit,
      budget.rescale multiplier = .ok { budget with limit := limit } ∧ Multiplied budget.base value limit) ∧
    ∀ scaled, budget.rescale multiplier = .ok scaled → ∃ value, multiplier.reading = some value ∧ 0 ≤ value := by
  constructor
  · intro value reads nonneg
    refine ⟨_, Budget.rescale_eq_ok_iff.mpr ⟨?_, rfl⟩, scale_size_multiplied reads nonneg budget.base⟩
    exact multiplier.accepted_iff_reading.mpr ⟨value, reads, nonneg⟩
  · intro scaled rescaled
    exact multiplier.accepted_iff_reading.mp (Budget.rescale_eq_ok_iff.mp rescaled).1

theorem Budget.rescale_mono {budget budget' scaled scaled' : Budget} {multiplier multiplier' : Multiplier}
    {value value' : WithBot (WithTop ℚ)} (reads : multiplier.reading = some value)
    (reads' : multiplier'.reading = some value') (rescaled : budget.rescale multiplier = .ok scaled)
    (rescaled' : budget'.rescale multiplier' = .ok scaled') (bases : budget.base ≤ budget'.base)
    (values : value ≤ value') : scaled.limit ≤ scaled'.limit := by
  obtain ⟨accepted, rfl⟩ := Budget.rescale_eq_ok_iff.mp rescaled
  obtain ⟨_, rfl⟩ := Budget.rescale_eq_ok_iff.mp rescaled'
  obtain ⟨_, reads'', nonneg⟩ := multiplier.accepted_iff_reading.mp accepted
  cases reads.symm.trans reads''
  have multiplied := scale_size_multiplied reads nonneg budget.base
  have multiplied' := scale_size_multiplied reads' (nonneg.trans values) budget'.base
  exact multiplied.mono multiplied' nonneg bases values

/-- A budget takes just the multipliers that stand for zero or more, and its limit is then what they make of its base;
it grows with the base and with the multiplier. A store and a stock that keep half are trimmed to half of their limit,
which is never more than the limit. -/
theorem limits_follow_exact_arithmetic :
    (∀ (budget : Budget) (multiplier : Multiplier),
      (∀ value, multiplier.reading = some value → 0 ≤ value → ∃ limit,
        budget.rescale multiplier = .ok { budget with limit := limit } ∧ Multiplied budget.base value limit) ∧
      ∀ scaled, budget.rescale multiplier = .ok scaled → ∃ value, multiplier.reading = some value ∧ 0 ≤ value) ∧
    (∀ (budget budget' scaled scaled' : Budget) (multiplier multiplier' : Multiplier)
      (value value' : WithBot (WithTop ℚ)),
      multiplier.reading = some value → multiplier'.reading = some value' →
      budget.rescale multiplier = .ok scaled → budget'.rescale multiplier' = .ok scaled' →
      budget.base ≤ budget'.base → value ≤ value' → scaled.limit ≤ scaled'.limit) ∧
    (∀ (κ α : Type) [BEq κ] [Hashable κ] (store : Lru κ α) (pressure : Pressure), pressure.retention = .half →
      store.trim pressure = store.trimTo (halfSize store.limit)) ∧
    (∀ (α σ : Type) [DecidableEq σ] [Hashable σ] [Ord σ] (stock : Pool.Stock α σ) (clearsAt pressure : Pressure),
      ¬ clearsAt.level ≤ pressure.level → pressure.retention = .half →
        stock.trim clearsAt pressure = stock.trimTo (halfSize stock.store.limit)) ∧
    ∀ size, Halved size (halfSize size) := by
  refine ⟨Budget.rescales, ?_, ?_, ?_, half_size_halved⟩
  · intro budget budget' scaled scaled' multiplier multiplier' value value' reads reads' rescaled rescaled'
    exact Budget.rescale_mono reads reads' rescaled rescaled'
  · intro κ α _ _ store pressure keepsHalf
    rw [Lru.trim, keepsHalf]
  · intro α σ _ _ _ stock clearsAt pressure mild keepsHalf
    rw [Pool.Stock.trim, if_neg mild, Lru.trim, keepsHalf]
    rfl

/-- Just beyond what is exact. The product of a base of thirty-one bits ends in three eighths, which are rounded to a
half and then to a whole; and a limit that fifty-three bits round up is halved to more than half. -/
theorem three_eighths_go_up :
    let budget := Budget.ofLimit 1073741827
    let multiplier : Multiplier := ⟨0x49800001⟩
    let factor : ℚ := 8388609 / 8
    let store : Lru Nat Nat := Lru.ofLimit 9007199254740995
    let stock : Pool.Stock Nat Nat := Pool.Stock.ofLimit 9007199254740995
    (∃ limit, budget.rescale multiplier = .ok { budget with limit := limit } ∧
      Multiplied budget.base (factor : WithTop ℚ) limit ∧ limit = 1125900044206081 ∧
      1073741827 * factor = 1125900044206080 + 3 / 8 ∧
      ∀ scaled, (Budget.ofLimit 1073741828).rescale ⟨0x7f800000⟩ = .ok scaled → limit ≤ scaled.limit) ∧
    store.trim Pressure.hidden = store.trimTo 4503599627370498 ∧
    stock.trim Pressure.background Pressure.hidden = stock.trimTo 4503599627370498 ∧
    Halved 9007199254740995 4503599627370498 := by
  intro budget multiplier factor store stock
  obtain ⟨rescales, mono, trims, trims', halved⟩ := limits_follow_exact_arithmetic
  have reads : multiplier.reading = some ((factor : WithTop ℚ) : WithBot (WithTop ℚ)) := by decide +kernel
  have half : halfSize 9007199254740995 = 4503599627370498 := by decide
  obtain ⟨limit, rescaled, multiplied⟩ := (rescales budget multiplier).1 _ reads (by decide +kernel)
  refine ⟨⟨limit, rescaled, multiplied, ?_, by norm_num [factor], ?_⟩, ?_, ?_, ?_⟩
  · have same := (Budget.rescale_eq_ok_iff.mp rescaled).2
    exact (congrArg Budget.limit same).trans (by decide)
  · intro scaled rescaled'
    exact mono budget _ _ scaled multiplier _ _ ⊤ reads (by decide) rescaled rescaled' (by decide) le_top
  · rw [trims Nat Nat store Pressure.hidden (by decide)]
    exact congrArg store.trimTo half
  · rw [trims' Nat Nat stock _ Pressure.hidden (by decide) (by decide)]
    exact congrArg stock.trimTo half
  · rw [← half]
    exact halved _

end MemoryBudget
