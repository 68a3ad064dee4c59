import MemoryBudget.Numeric.Significant
import Mathlib.Algebra.Order.Field.Power
import Mathlib.Algebra.Order.Field.Rat
import Mathlib.Tactic.FieldSimp
import Mathlib.Tactic.Linarith
import Mathlib.Tactic.Positivity
import Mathlib.Tactic.Ring
import Mathlib.Tactic.Zify

/-!
# Rounding to fifty-three bits

What rounding means for a rational number, said without an algorithm: the nearest number with fifty-three significant
bits, and of two that are equally near the one whose last bit is even. There is only one such number, it grows with
what is rounded, and keeping the leading bits of a natural number finds it.
-/

set_option autoImplicit false

namespace MemoryBudget

/-- A number with so many significant bits, wherever its point is. -/
def Significant (bits : ℕ) (number : ℚ) : Prop :=
  ∃ (digits : ℕ) (exponent : ℤ), digits < 2 ^ bits ∧ number = digits * 2 ^ exponent

/-- The nearest number with fifty-three bits. Another one is only as near if the last bit is even, so that fifty-two
bits are enough. -/
structure RoundsTo (exact rounded : ℚ) : Prop where
  significant : Significant 53 rounded
  nearest : ∀ other, Significant 53 other → |exact - rounded| ≤ |exact - other|
  even : ∀ other, Significant 53 other → other ≠ rounded → |exact - other| = |exact - rounded| →
    Significant 52 rounded

/-! ## Numbers with few significant bits -/

theorem two_zpow_pos (exponent : ℤ) : (0 : ℚ) < 2 ^ exponent := zpow_pos two_pos exponent

theorem significant_of_lt {bits digits : ℕ} (few : digits < 2 ^ bits) (exponent : ℤ) :
    Significant bits (digits * 2 ^ exponent) :=
  ⟨digits, exponent, few, rfl⟩

/-- One bit more than there is room for is the last one of a carry. -/
theorem significant_of_le {bits digits : ℕ} (few : digits ≤ 2 ^ (bits + 1)) (exponent : ℤ) :
    Significant (bits + 1) (digits * 2 ^ exponent) := by
  rcases few.lt_or_eq with fewer | rfl
  · exact significant_of_lt fewer exponent
  · refine ⟨2 ^ bits, exponent + 1, Nat.pow_lt_pow_succ Nat.one_lt_two, ?_⟩
    rw [zpow_add_one₀ two_ne_zero]
    push_cast
    ring

theorem significant_of_nat {bits number : ℕ} (few : number ≤ 2 ^ (bits + 1)) : Significant (bits + 1) number := by
  simpa using significant_of_le few 0

namespace Significant

variable {bits : ℕ} {number : ℚ}

theorem zero (bits : ℕ) : Significant bits 0 := ⟨0, 0, Nat.two_pow_pos bits, by simp⟩

theorem nonneg (significant : Significant bits number) : 0 ≤ number := by
  obtain ⟨digits, exponent, _, rfl⟩ := significant
  exact mul_nonneg (Nat.cast_nonneg digits) (two_zpow_pos exponent).le

theorem succ (significant : Significant bits number) : Significant (bits + 1) number := by
  obtain ⟨digits, exponent, few, rfl⟩ := significant
  exact significant_of_lt (few.trans (Nat.pow_lt_pow_succ Nat.one_lt_two)) exponent

theorem scaled (significant : Significant bits number) (places : ℤ) : Significant bits (number * 2 ^ places) := by
  obtain ⟨digits, exponent, few, rfl⟩ := significant
  refine ⟨digits, exponent + places, few, ?_⟩
  rw [zpow_add₀ two_ne_zero, mul_assoc]

theorem mul {bits' : ℕ} {number' : ℚ} (significant : Significant bits number)
    (significant' : Significant bits' number') : Significant (bits + bits') (number * number') := by
  obtain ⟨digits, exponent, few, rfl⟩ := significant
  obtain ⟨digits', exponent', few', rfl⟩ := significant'
  refine ⟨digits * digits', exponent + exponent', ?_, ?_⟩
  · rw [pow_add]
    exact Nat.mul_lt_mul'' few few'
  · rw [zpow_add₀ two_ne_zero]
    push_cast
    ring

/-- Large numbers with few bits are whole multiples of the same power of two. -/
theorem on_grid (significant : Significant (bits + 1) number) {exponent : ℤ}
    (large : 2 ^ bits * 2 ^ exponent ≤ number) : ∃ multiple : ℕ, number = multiple * 2 ^ exponent := by
  obtain ⟨digits, exponent', few, rfl⟩ := significant
  have below : (digits : ℚ) * 2 ^ exponent' < 2 ^ (bits + 1) * 2 ^ exponent' := by
    apply mul_lt_mul_of_pos_right _ (two_zpow_pos exponent')
    exact_mod_cast few
  have power : (2 : ℚ) ^ bits * 2 ^ exponent < 2 ^ bits * 2 ^ (exponent' + 1) := by
    calc (2 : ℚ) ^ bits * 2 ^ exponent ≤ digits * 2 ^ exponent' := large
      _ < 2 ^ (bits + 1) * 2 ^ exponent' := below
      _ = 2 ^ bits * 2 ^ (exponent' + 1) := by rw [zpow_add_one₀ two_ne_zero, pow_succ]; ring
  have order : exponent < exponent' + 1 :=
    (zpow_lt_zpow_iff_right₀ one_lt_two).mp (lt_of_mul_lt_mul_left power (by positivity))
  obtain ⟨places, split⟩ := Int.le.dest (show exponent ≤ exponent' by omega)
  refine ⟨digits * 2 ^ places, ?_⟩
  rw [← split, zpow_add₀ two_ne_zero, zpow_natCast]
  push_cast
  ring

/-- A positive number may be written with all its bits in use. -/
theorem normalised (significant : Significant (bits + 1) number) (positive : 0 < number) :
    ∃ (digits : ℕ) (exponent : ℤ), 2 ^ bits ≤ digits ∧ digits < 2 ^ (bits + 1) ∧ number = digits * 2 ^ exponent := by
  obtain ⟨digits, exponent, few, rfl⟩ := significant
  have some : digits ≠ 0 := by
    rintro rfl
    simp at positive
  have atMost : digits.log2 ≤ bits := Nat.lt_succ_iff.mp ((Nat.log2_lt some).mpr few)
  have shifted : digits.log2 + (bits - digits.log2) = bits := by omega
  refine ⟨digits * 2 ^ (bits - digits.log2), exponent - (bits - digits.log2 : ℕ), ?_, ?_, ?_⟩
  · calc 2 ^ bits = 2 ^ digits.log2 * 2 ^ (bits - digits.log2) := by rw [← pow_add, shifted]
      _ ≤ digits * 2 ^ (bits - digits.log2) := Nat.mul_le_mul_right _ (Nat.log2_self_le some)
  · calc digits * 2 ^ (bits - digits.log2) < 2 ^ (digits.log2 + 1) * 2 ^ (bits - digits.log2) :=
          Nat.mul_lt_mul_of_pos_right Nat.lt_log2_self (Nat.two_pow_pos _)
      _ = 2 ^ (bits + 1) := by rw [← pow_add]; congr 1; omega
  · rw [zpow_sub₀ two_ne_zero, zpow_natCast]
    push_cast
    field_simp

/-- Between two numbers there is one with a bit more. -/
theorem exists_between {other : ℚ} (significant : Significant (bits + 1) number)
    (significant' : Significant (bits + 1) other) (less : number < other) :
    ∃ between, Significant (bits + 2) between ∧ number < between ∧ between < other := by
  rcases significant.nonneg.eq_or_lt with rfl | positive
  · refine ⟨other * 2 ^ (-1 : ℤ), (significant'.scaled (-1)).succ, ?_, ?_⟩
    · exact mul_pos less (two_zpow_pos _)
    · rw [zpow_neg_one]
      linarith
  · obtain ⟨digits, exponent, many, few, rfl⟩ := significant.normalised positive
    have unit := two_zpow_pos exponent
    have atLeast : (2 : ℚ) ^ bits * 2 ^ exponent ≤ digits * 2 ^ exponent := by
      apply mul_le_mul_of_nonneg_right _ unit.le
      exact_mod_cast many
    obtain ⟨multiple, rfl⟩ := significant'.on_grid (atLeast.trans less.le)
    have next : (digits : ℚ) + 1 ≤ multiple := by
      exact_mod_cast lt_of_mul_lt_mul_right less unit.le
    refine ⟨(2 * digits + 1 : ℕ) * 2 ^ (exponent - 1), significant_of_lt (by rw [pow_succ]; omega) _, ?_, ?_⟩
    · rw [zpow_sub_one₀ two_ne_zero]
      push_cast
      linarith
    · rw [zpow_sub_one₀ two_ne_zero]
      push_cast
      nlinarith

end Significant

/-! ## What is rounded to -/

/-- A number is nearer to the lower one of two if it is not above their mean. -/
theorem nearer_below_iff {exact lower upper : ℚ} (order : lower < upper) :
    |exact - lower| ≤ |exact - upper| ↔ 2 * exact ≤ lower + upper := by
  rw [← sq_le_sq]
  constructor
  · intro nearer
    nlinarith
  · intro below
    nlinarith

theorem nearer_above_iff {exact lower upper : ℚ} (order : lower < upper) :
    |exact - upper| ≤ |exact - lower| ↔ lower + upper ≤ 2 * exact := by
  rw [← sq_le_sq]
  constructor
  · intro nearer
    nlinarith
  · intro above
    nlinarith

namespace RoundsTo

variable {exact exact' rounded rounded' : ℚ}

theorem of_significant (significant : Significant 53 exact) : RoundsTo exact exact where
  significant := significant
  nearest other _ := by
    rw [sub_self, abs_zero]
    exact abs_nonneg _
  even other _ different same := by
    rw [sub_self, abs_zero, abs_eq_zero, sub_eq_zero] at same
    exact absurd same.symm different

theorem scaled (rounds : RoundsTo exact rounded) (places : ℤ) :
    RoundsTo (exact * 2 ^ places) (rounded * 2 ^ places) := by
  have unit := two_zpow_pos places
  have distance : ∀ number : ℚ, |exact * 2 ^ places - number * 2 ^ places| = |exact - number| * 2 ^ places := by
    intro number
    rw [← sub_mul, abs_mul, abs_of_pos unit]
  have unscaled : ∀ other : ℚ, other = other * 2 ^ (-places) * 2 ^ places := by
    intro other
    rw [mul_assoc, ← zpow_add₀ two_ne_zero, neg_add_cancel, zpow_zero, mul_one]
  constructor
  · exact rounds.significant.scaled places
  · intro other significant
    rw [unscaled other, distance, distance]
    exact mul_le_mul_of_nonneg_right (rounds.nearest _ (significant.scaled _)) unit.le
  · intro other significant different same
    rw [unscaled other] at different
    rw [unscaled other, distance, distance] at same
    apply (rounds.even _ (significant.scaled (-places)) _ (mul_right_cancel₀ unit.ne' same)).scaled
    rintro rfl
    exact different rfl

/-- Of two numbers the lower one is not rounded up past the other: their mean would lie between the two. -/
theorem le_of_lt (rounds : RoundsTo exact rounded) (rounds' : RoundsTo exact' rounded') (less : exact < exact') :
    rounded ≤ rounded' := by
  by_contra above
  have order : rounded' < rounded := not_le.mp above
  have high := (nearer_above_iff order).mp (rounds.nearest rounded' rounds'.significant)
  have low := (nearer_below_iff order).mp (rounds'.nearest rounded rounds.significant)
  linarith

/-- If both were as near, both would be even, and what lies between them would be nearer. -/
theorem not_lt (rounds : RoundsTo exact rounded) (rounds' : RoundsTo exact rounded') : ¬ rounded < rounded' := by
  intro less
  have same : |exact - rounded'| = |exact - rounded| :=
    le_antisymm (rounds'.nearest rounded rounds.significant) (rounds.nearest rounded' rounds'.significant)
  have even := rounds.even rounded' rounds'.significant less.ne' same
  have even' := rounds'.even rounded rounds.significant less.ne same.symm
  obtain ⟨between, significant, above, below⟩ := even.exists_between even' less
  have mean := (nearer_above_iff less).mp same.le
  have lower := (nearer_below_iff above).mp (rounds.nearest between significant)
  linarith

theorem unique (rounds : RoundsTo exact rounded) (rounds' : RoundsTo exact rounded') : rounded = rounded' :=
  le_antisymm (le_of_not_gt (rounds'.not_lt rounds)) (le_of_not_gt (rounds.not_lt rounds'))

theorem mono (rounds : RoundsTo exact rounded) (rounds' : RoundsTo exact' rounded') (atMost : exact ≤ exact') :
    rounded ≤ rounded' := by
  rcases atMost.lt_or_eq with less | rfl
  · exact rounds.le_of_lt rounds' less
  · exact (rounds.unique rounds').le

/-- Rounding at most doubles a number. -/
theorem le_double (rounds : RoundsTo exact rounded) (nonneg : 0 ≤ exact) : rounded ≤ 2 * exact := by
  have near := rounds.nearest 0 (Significant.zero 53)
  rw [sub_zero, abs_of_nonneg nonneg] at near
  linarith [neg_le_of_abs_le near]

end RoundsTo

/-! ## Keeping the leading bits -/

/-- A quotient misses by half a divisor at most, and by as much as that only if it is even. -/
theorem nearest_quotient_near (number shift : ℕ) :
    2 * |(number : ℤ) - nearestQuotient number shift * 2 ^ shift| ≤ 2 ^ shift ∧
      (2 * |(number : ℤ) - nearestQuotient number shift * 2 ^ shift| = 2 ^ shift →
        nearestQuotient number shift % 2 = 0) := by
  have positive : 0 < 2 ^ shift := Nat.two_pow_pos shift
  have small := Nat.mod_lt number positive
  have parts : (number : ℤ) = (2 ^ shift : ℕ) * (number / 2 ^ shift : ℕ) + (number % 2 ^ shift : ℕ) := by
    exact_mod_cast (Nat.div_add_mod number (2 ^ shift)).symm
  rw [nearestQuotient, show Nat.pow 2 shift = 2 ^ shift from rfl, show (2 : ℤ) ^ shift = (2 ^ shift : ℕ) by norm_cast]
  generalize number / 2 ^ shift = quotient at *
  generalize number % 2 ^ shift = rest at *
  generalize 2 ^ shift = divisor at *
  split_ifs with up
  · have missing : (number : ℤ) - (quotient + 1 : ℕ) * divisor = -((divisor : ℤ) - rest) := by
      rw [parts]
      push_cast
      ring
    rw [missing, abs_neg, abs_of_nonneg (by omega)]
    omega
  · have left : (number : ℤ) - quotient * divisor = rest := by
      rw [parts]
      ring
    rw [left, Nat.abs_cast]
    omega

/-- No multiple is nearer, and another one is only as near if the quotient is even. -/
theorem nearest_quotient_nearest (number shift multiple : ℕ) :
    |(number : ℤ) - nearestQuotient number shift * 2 ^ shift| ≤ |(number : ℤ) - multiple * 2 ^ shift| ∧
      (multiple ≠ nearestQuotient number shift →
        |(number : ℤ) - multiple * 2 ^ shift| = |(number : ℤ) - nearestQuotient number shift * 2 ^ shift| →
          nearestQuotient number shift % 2 = 0) := by
  obtain ⟨near, even⟩ := nearest_quotient_near number shift
  generalize nearestQuotient number shift = quotient at *
  by_cases same : multiple = quotient
  · rw [same]
    exact ⟨le_rfl, fun different => absurd rfl different⟩
  · have apart : (2 : ℤ) ^ shift ≤ |((quotient : ℤ) - multiple) * 2 ^ shift| := by
      rw [abs_mul, abs_of_pos (show (0 : ℤ) < 2 ^ shift by positivity)]
      exact le_mul_of_one_le_left (by positivity) (Int.one_le_abs (by omega))
    have between : |((quotient : ℤ) - multiple) * 2 ^ shift| ≤
        |(number : ℤ) - multiple * 2 ^ shift| + |(number : ℤ) - quotient * 2 ^ shift| := by
      refine le_trans (le_of_eq ?_) (abs_sub _ _)
      congr 1
      ring
    constructor
    · omega
    · intro _ tie
      exact even (by omega)

/-- A number with few bits is a multiple of the distance between the larger ones, or farther away than one. -/
theorem Significant.multiple_or_farther {number shift : ℕ} {other : ℚ} (significant : Significant 53 other)
    (large : 2 ^ 52 * 2 ^ shift ≤ number) :
    ∃ multiple : ℕ, other = multiple * 2 ^ shift ∨ |(number : ℚ) - multiple * 2 ^ shift| < |(number : ℚ) - other| := by
  by_cases atLeast : (2 : ℚ) ^ 52 * 2 ^ (shift : ℤ) ≤ other
  · obtain ⟨multiple, onGrid⟩ := significant.on_grid atLeast
    rw [zpow_natCast] at onGrid
    exact ⟨multiple, Or.inl onGrid⟩
  · refine ⟨2 ^ 52, Or.inr ?_⟩
    rw [zpow_natCast, not_le] at atLeast
    have enough : (2 : ℚ) ^ 52 * 2 ^ shift ≤ number := by exact_mod_cast large
    rw [Nat.cast_pow, Nat.cast_two, abs_of_nonneg (by linarith), abs_of_pos (by linarith)]
    linarith

/-- Where fifty-three bits leave out `shift` of them, the nearest quotient is what a number is rounded to. -/
theorem nearest_quotient_rounds {number shift : ℕ} (lower : 2 ^ 52 * 2 ^ shift ≤ number)
    (upper : number < 2 ^ 53 * 2 ^ shift) : RoundsTo number (nearestQuotient number shift * 2 ^ shift) := by
  obtain ⟨near, _⟩ := nearest_quotient_near number shift
  have nearest : ∀ multiple : ℕ, |(number : ℚ) - nearestQuotient number shift * 2 ^ shift| ≤
        |(number : ℚ) - multiple * 2 ^ shift| ∧ (multiple ≠ nearestQuotient number shift →
      |(number : ℚ) - multiple * 2 ^ shift| = |(number : ℚ) - nearestQuotient number shift * 2 ^ shift| →
        nearestQuotient number shift % 2 = 0) := by
    intro multiple
    exact_mod_cast nearest_quotient_nearest number shift multiple
  generalize nearestQuotient number shift = quotient at *
  have few : quotient ≤ 2 ^ 53 := by
    by_contra many
    have above : (2 ^ 53 + 1) * 2 ^ shift ≤ quotient * 2 ^ shift := Nat.mul_le_mul_right _ (by omega)
    have below := neg_abs_le ((number : ℤ) - quotient * 2 ^ shift)
    have unit : (0 : ℤ) < 2 ^ shift := by positivity
    zify at above upper
    linarith
  constructor
  · exact_mod_cast significant_of_le few (shift : ℤ)
  · intro other significant
    obtain ⟨multiple, rfl | farther⟩ := significant.multiple_or_farther lower
    · exact (nearest multiple).1
    · exact (nearest multiple).1.trans farther.le
  · intro other significant different tie
    obtain ⟨multiple, rfl | farther⟩ := significant.multiple_or_farther lower
    · have even := (nearest multiple).2 (fun same => different (by rw [same])) tie
      have halved : (quotient : ℚ) * 2 ^ shift = (quotient / 2 : ℕ) * 2 ^ (shift + 1 : ℤ) := by
        obtain ⟨half, rfl⟩ := Nat.dvd_of_mod_eq_zero even
        rw [Nat.mul_div_cancel_left half two_pos, zpow_add_one₀ two_ne_zero, zpow_natCast]
        push_cast
        ring
      rw [halved]
      exact significant_of_le (by omega) _
    · exact absurd (tie ▸ farther) (not_lt.mpr (nearest multiple).1)

theorem round_significant_of_few {number : ℕ} (few : number < 2 ^ 53) : roundSignificant number = number := by
  have noShift : number.log2 - 52 = 0 := by
    rcases Nat.eq_zero_or_pos number with rfl | positive
    · rfl
    · have := (Nat.log2_lt positive.ne').mpr few
      omega
  simp [roundSignificant, noShift, nearestQuotient, Nat.mod_one]

/-- Keeping the leading bits is rounding. -/
theorem round_significant_rounds (number : ℕ) : RoundsTo number (roundSignificant number) := by
  by_cases few : number < 2 ^ 53
  · rw [round_significant_of_few few]
    exact .of_significant (significant_of_nat few.le)
  · have positive : number ≠ 0 := by
      rintro rfl
      simp at few
    obtain ⟨shift, size⟩ : ∃ shift, number.log2 = 52 + shift :=
      Nat.exists_eq_add_of_le ((Nat.le_log2 positive).mpr (by omega))
    have lower : 2 ^ 52 * 2 ^ shift ≤ number := by
      rw [← pow_add, ← size]
      exact Nat.log2_self_le positive
    have upper : number < 2 ^ 53 * 2 ^ shift := by
      rw [← pow_add, show 53 + shift = number.log2 + 1 by omega]
      exact Nat.lt_log2_self
    have value : ((roundSignificant number : ℕ) : ℚ) = nearestQuotient number shift * 2 ^ shift := by
      rw [roundSignificant, show number.log2 - 52 = shift by omega]
      exact_mod_cast rfl
    rw [value]
    exact nearest_quotient_rounds lower upper

end MemoryBudget
