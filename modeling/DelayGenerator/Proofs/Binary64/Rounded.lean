/-
This file shows that seven digits survive being read: the number nearest to the seven digits of a
number has the same seven digits.
-/

import DelayGenerator.Proofs.Binary64.Digits
import Mathlib.Algebra.Order.Group.Unbundled.Abs
import Mathlib.Data.Int.ConditionallyCompleteOrder

namespace DelayGenerator.Binary64

/-- The power of ten, as a multiple of `2 ^ -1074`. -/
def decimalUnit (exponent : Int) : ℚ := 10 ^ exponent * one

theorem decimalUnit_pos (exponent : Int) : 0 < decimalUnit exponent :=
  mul_pos (by positivity) (by exact_mod_cast one_pos)

theorem decimalUnit_add_one (exponent : Int) : decimalUnit (exponent + 1) = 10 * decimalUnit exponent := by
  rw [decimalUnit, decimalUnit, zpow_add_one₀ (by norm_num)]
  ring

theorem decimalUnit_add (exponent : Int) (count : Nat) :
    decimalUnit (exponent + count) = 10 ^ count * decimalUnit exponent := by
  rw [decimalUnit, decimalUnit, zpow_add₀ (by norm_num), zpow_natCast]
  ring

theorem decimalUnit_strictMono : StrictMono decimalUnit := fun lower upper less =>
  mul_lt_mul_of_pos_right (zpow_lt_zpow_right₀ (by norm_num) less) (by exact_mod_cast one_pos)

section

variable (size : Nat) (exponent : Int)

/-- The nearest multiple of a power of ten is no further away than a half. -/
theorem roundRatio_scaleDown_near :
    2 * |(size : ℚ) - roundRatio (scaleDown size one exponent).1 (scaleDown size one exponent).2 *
      decimalUnit exponent| ≤ decimalUnit exponent := by
  have unit := scaleDown_snd_pos size one_pos exponent
  have unitCast : (0 : ℚ) < (scaleDown size one exponent).2 := by exact_mod_cast unit
  have scaled : ((scaleDown size one exponent).1 : ℚ) * decimalUnit exponent =
    size * (scaleDown size one exponent).2 := scaleDown_eq size one exponent
  have factor := decimalUnit_pos exponent
  obtain ⟨above, below⟩ := roundRatio_near (scaleDown size one exponent).1 unit
  generalize roundRatio (scaleDown size one exponent).1 (scaleDown size one exponent).2 = nearest
    at above below ⊢
  generalize (scaleDown size one exponent).1 = numerator at scaled above below
  generalize (scaleDown size one exponent).2 = denominator at unitCast scaled above below
  have aboveCast : 2 * ((nearest : ℚ) * denominator) ≤ 2 * numerator + denominator := by exact_mod_cast above
  have belowCast : 2 * (numerator : ℚ) ≤ 2 * (nearest * denominator) + denominator := by exact_mod_cast below
  have high := mul_le_mul_of_nonneg_right aboveCast factor.le
  have low := mul_le_mul_of_nonneg_right belowCast factor.le
  have bounds : |2 * ((size : ℚ) - nearest * decimalUnit exponent)| ≤ decimalUnit exponent := by
    rw [abs_le]
    constructor <;> refine le_of_mul_le_mul_right ?_ unitCast <;> linarith
  rwa [abs_mul, abs_two] at bounds

/-- A multiple of a power of ten that is less far away than a half is the nearest one. -/
theorem roundRatio_scaleDown_eq {size : Nat} {exponent : Int} {nearest : Nat}
    (near : 2 * |(size : ℚ) - nearest * decimalUnit exponent| < decimalUnit exponent) :
    roundRatio (scaleDown size one exponent).1 (scaleDown size one exponent).2 = nearest := by
  have other := roundRatio_scaleDown_near size exponent
  generalize roundRatio (scaleDown size one exponent).1 (scaleDown size one exponent).2 = rounded at other
  have factor := decimalUnit_pos exponent
  obtain ⟨nearLow, nearHigh⟩ := abs_le.mp (le_refl |(size : ℚ) - nearest * decimalUnit exponent|)
  obtain ⟨otherLow, otherHigh⟩ := abs_le.mp (le_refl |(size : ℚ) - rounded * decimalUnit exponent|)
  rcases Nat.lt_trichotomy rounded nearest with less | same | more
  · have bound : ((rounded : ℚ) + 1) * decimalUnit exponent ≤ nearest * decimalUnit exponent :=
      mul_le_mul_of_nonneg_right (by exact_mod_cast less) factor.le
    linarith
  · exact same
  · have bound : ((nearest : ℚ) + 1) * decimalUnit exponent ≤ rounded * decimalUnit exponent :=
      mul_le_mul_of_nonneg_right (by exact_mod_cast more) factor.le
    linarith

end

/-- The size of a number lies between the powers of ten at its top. -/
theorem top_multiple_bounds {rank : Nat} (positive : 0 < rank) :
    decimalUnit (top (multiple rank) one - 1) ≤ multiple rank ∧
      (multiple rank : ℚ) ≤ decimalUnit (top (multiple rank) one) := by
  have scale : (0 : ℚ) < one := by exact_mod_cast one_pos
  obtain ⟨low, high⟩ := top_bounds (multiple_pos positive) one_pos
  exact ⟨(le_div_iff₀ scale).mp low, (div_le_iff₀ scale).mp high⟩

/-- The seven digits come from the nearest multiple of a power of ten seven places below the top. -/
theorem rounded_of_top {rank coefficient : Nat} {exponent : Int}
    (high : top (multiple rank) one = exponent + 7)
    (nearest :
      roundRatio (scaleDown (multiple rank) one exponent).1 (scaleDown (multiple rank) one exponent).2 =
      coefficient) :
    rounded 7 rank =
      if coefficient = 10000000 then ⟨1000000, exponent + 1⟩ else ⟨coefficient, exponent⟩ := by
  have back : top (multiple rank) one - (7 : Nat) = exponent := by omega
  unfold rounded
  generalize one = unit at *
  dsimp only
  rw [back, nearest]
  by_cases full : coefficient = 10000000
  · subst full
    rfl
  · have notFull : ¬ (coefficient == Nat.pow 10 7) = true := by
      rw [beq_iff_eq]
      exact full
    rw [if_neg full, if_neg notFull]
/-- Digits that are neither too few nor too many, and no further away from a size than a half of the
last one. -/
structure Digits.Describes (digits : Digits) (size : Nat) : Prop where
  low : 1000000 ≤ digits.coefficient
  high : digits.coefficient < 10000000
  near : 2 * |(size : ℚ) - digits.coefficient * decimalUnit digits.exponent| ≤ decimalUnit digits.exponent

/-- Seven digits lie between a million and ten million units of the last one. -/
theorem Digits.Describes.units {digits : Digits} {size : Nat} (describes : digits.Describes size) :
    1000000 * decimalUnit digits.exponent ≤ digits.coefficient * decimalUnit digits.exponent ∧
      digits.coefficient * decimalUnit digits.exponent ≤ 10000000 * decimalUnit digits.exponent := by
  have factor := decimalUnit_pos digits.exponent
  exact ⟨mul_le_mul_of_nonneg_right (by exact_mod_cast describes.low) factor.le,
    mul_le_mul_of_nonneg_right (by exact_mod_cast describes.high.le) factor.le⟩

/-- Seven digits of a number are seven digits near to it. -/
theorem rounded_describes {rank : Nat} (positive : 0 < rank) : (rounded 7 rank).Describes (multiple rank) := by
  obtain ⟨low, high⟩ := top_multiple_bounds positive
  obtain ⟨exponent, same⟩ : ∃ exponent, top (multiple rank) one = exponent + (7 : Nat) :=
    ⟨top (multiple rank) one - 7, by omega⟩
  rw [same, show exponent + (7 : Nat) - 1 = exponent + (6 : Nat) by omega, decimalUnit_add] at low
  rw [same, decimalUnit_add] at high
  have near := roundRatio_scaleDown_near (multiple rank) exponent
  have factor := decimalUnit_pos exponent
  obtain ⟨coefficient, nearest⟩ : ∃ coefficient, roundRatio (scaleDown (multiple rank) one exponent).1
    (scaleDown (multiple rank) one exponent).2 = coefficient := ⟨_, rfl⟩
  rw [rounded_of_top same nearest]
  rw [nearest] at near
  obtain ⟨below, above⟩ := abs_le.mp (le_refl |(multiple rank : ℚ) - coefficient * decimalUnit exponent|)
  have many : 1000000 ≤ coefficient := by
    refine Nat.le_of_not_lt fun few => ?_
    have bound : ((coefficient : ℚ) + 1) * decimalUnit exponent ≤ 1000000 * decimalUnit exponent :=
      mul_le_mul_of_nonneg_right (by exact_mod_cast few) factor.le
    linarith
  have few : coefficient ≤ 10000000 := by
    refine Nat.le_of_not_lt fun many => ?_
    have bound : 10000001 * decimalUnit exponent ≤ (coefficient : ℚ) * decimalUnit exponent :=
      mul_le_mul_of_nonneg_right (by exact_mod_cast many) factor.le
    linarith
  split
  next full =>
    subst full
    refine ⟨Nat.le_refl 1000000, show 1000000 < 10000000 by decide, ?_⟩
    dsimp only
    rw [decimalUnit_add_one]
    rw [show ((10000000 : Nat) : ℚ) * decimalUnit exponent =
      ((1000000 : Nat) : ℚ) * (10 * decimalUnit exponent) by norm_num; ring] at near
    linarith
  next notFull => exact ⟨many, Nat.lt_of_le_of_ne few notFull, near⟩

/-- A number just below a power of ten has its digits, counted in the smaller unit. -/
theorem rounded_of_below {rank : Nat} {exponent : Int}
    (below : top (multiple rank) one = exponent + (6 : Nat))
    (near : 20 * |(multiple rank : ℚ) - (1000000 : Nat) * decimalUnit exponent| < decimalUnit exponent) :
    rounded 7 rank = ⟨1000000, exponent⟩ := by
  obtain ⟨lower, next⟩ : ∃ lower, exponent = lower + 1 := ⟨exponent - 1, by omega⟩
  subst next
  rw [decimalUnit_add_one, show ((1000000 : Nat) : ℚ) * (10 * decimalUnit lower) =
    (10000000 : Nat) * decimalUnit lower by norm_num; ring] at near
  have full : 2 * |(multiple rank : ℚ) - (10000000 : Nat) * decimalUnit lower| < decimalUnit lower := by
    linarith
  have high : top (multiple rank) one = lower + 7 := by omega
  rw [rounded_of_top high (roundRatio_scaleDown_eq full), if_pos rfl]

/-- Seven digits that are near to a number are its seven digits. Below a power of ten the digits
lie closer to each other. -/
theorem rounded_eq {rank : Nat} {digits : Digits} (low : 1000000 ≤ digits.coefficient)
    (high : digits.coefficient < 10000000)
    (near : 2 * |(multiple rank : ℚ) - digits.coefficient * decimalUnit digits.exponent| <
      decimalUnit digits.exponent)
    (nearer : multiple rank < 1000000 * decimalUnit digits.exponent →
      20 * |(multiple rank : ℚ) - digits.coefficient * decimalUnit digits.exponent| <
        decimalUnit digits.exponent) :
    rounded 7 rank = digits := by
  obtain ⟨coefficient, exponent⟩ := digits
  dsimp only at low high near nearer
  have factor := decimalUnit_pos exponent
  obtain ⟨below, above⟩ := abs_le.mp (le_refl |(multiple rank : ℚ) - coefficient * decimalUnit exponent|)
  have lowCast : (1000000 : ℚ) * decimalUnit exponent ≤ coefficient * decimalUnit exponent :=
    mul_le_mul_of_nonneg_right (by exact_mod_cast low) factor.le
  have highCast : ((coefficient : ℚ) + 1) * decimalUnit exponent ≤ 10000000 * decimalUnit exponent :=
    mul_le_mul_of_nonneg_right (by exact_mod_cast high) factor.le
  have positive : 0 < rank := by
    refine Nat.pos_of_ne_zero fun zero => ?_
    subst zero
    rw [show multiple 0 = 0 from rfl, Nat.cast_zero] at below above near
    linarith
  obtain ⟨bottom, ceiling⟩ := top_multiple_bounds positive
  have six := decimalUnit_add exponent 6
  have seven := decimalUnit_add exponent 7
  have five := decimalUnit_add_one (exponent + (5 : Nat))
  rw [show exponent + (5 : Nat) + 1 = exponent + (6 : Nat) by omega, six] at five
  have under : top (multiple rank) one - 1 < exponent + (7 : Nat) := by
    rw [← decimalUnit_strictMono.lt_iff_lt, seven]
    linarith
  have beyond : exponent + (5 : Nat) < top (multiple rank) one := by
    rw [← decimalUnit_strictMono.lt_iff_lt]
    linarith
  rcases (show top (multiple rank) one = exponent + (7 : Nat) ∨
      top (multiple rank) one = exponent + (6 : Nat) by
    omega) with same | same
  · rw [rounded_of_top same (roundRatio_scaleDown_eq near), if_neg high.ne]
  · -- The number is a power of ten, or lies just below one.
    rw [same, six] at ceiling
    have first : coefficient = 1000000 := by
      refine Nat.le_antisymm (Nat.le_of_not_lt fun more => ?_) low
      have bound : (1000001 : ℚ) * decimalUnit exponent ≤ coefficient * decimalUnit exponent :=
        mul_le_mul_of_nonneg_right (by exact_mod_cast more) factor.le
      linarith
    subst first
    refine rounded_of_below same ?_
    rcases lt_or_eq_of_le ceiling with less | power
    · exact nearer (by linarith)
    · rw [power]
      norm_num
      exact factor

theorem coefficient_rounded_zero : (rounded 7 0).coefficient = 0 := by
  have none : 2 * |(multiple 0 : ℚ) - (0 : Nat) * decimalUnit (top (multiple 0) one - 7)| <
      decimalUnit (top (multiple 0) one - 7) := by
    rw [show multiple 0 = 0 from rfl, Nat.cast_zero, zero_mul, sub_zero, abs_zero, mul_zero]
    exact decimalUnit_pos _
  rw [rounded_of_top (show top (multiple 0) one = top (multiple 0) one - 7 + 7 by omega)
    (roundRatio_scaleDown_eq none), if_neg (by decide)]

/-- How far the number that a decimal number is read as may be from it, in multiples of
`2 ^ -1074`. -/
theorem nearestRank_error {numerator denominator : Nat} (positive : 0 < denominator) {target : ℚ}
    (same : (numerator : ℚ) / denominator * one = target) :
    2 * |(multiple (nearestRank numerator denominator) : ℚ) - target| ≤ 1 ∨
      4503599627370496 * (2 * |(multiple (nearestRank numerator denominator) : ℚ) - target|) ≤ target := by
  obtain ⟨octave, above, below, large⟩ := nearestRank_near numerator positive
  have positiveCast : (0 : ℚ) < denominator := by exact_mod_cast positive
  have scaled : (numerator : ℚ) * one = target * denominator := by
    rw [← same, div_mul_eq_mul_div, div_mul_cancel₀ _ positiveCast.ne']
  generalize multiple (nearestRank numerator denominator) = size at above below ⊢
  have power : Nat.pow 2 octave = 2 ^ octave := rfl
  rw [power] at above below large
  have aboveCast : 2 * ((size : ℚ) * denominator) ≤ 2 * (numerator * one) + denominator * 2 ^ octave := by
    exact_mod_cast above
  have belowCast : 2 * ((numerator : ℚ) * one) ≤ 2 * (size * denominator) + denominator * 2 ^ octave := by
    exact_mod_cast below
  rw [scaled] at aboveCast belowCast
  have error : 2 * |(size : ℚ) - target| ≤ 2 ^ octave := by
    have bounds : |2 * ((size : ℚ) - target)| ≤ 2 ^ octave := by
      rw [abs_le]
      constructor <;> refine le_of_mul_le_mul_right ?_ positiveCast <;> linarith
    rwa [abs_mul, abs_two] at bounds
  rcases Nat.eq_zero_or_pos octave with first | later
  · rw [first, pow_zero] at error
    exact Or.inl error
  · have largeCast : (octaveSize : ℚ) * (denominator * 2 ^ octave) ≤ numerator * one := by
      exact_mod_cast large later.ne'
    rw [scaled, show octaveSize = 4503599627370496 from rfl] at largeCast
    push_cast at largeCast
    have bound : 4503599627370496 * (2 : ℚ) ^ octave ≤ target :=
      le_of_mul_le_mul_right (by linarith) positiveCast
    exact Or.inr (by linarith)

theorem decimalUnit_neg (power : Nat) : decimalUnit (-(power : Int)) * 10 ^ power = one := by
  have some : (10 : ℚ) ^ power ≠ 0 := by positivity
  rw [decimalUnit, zpow_neg, zpow_natCast, mul_right_comm, inv_mul_cancel₀ some, one_mul]

section

variable {factor count power : Nat}

theorem lt_decimalUnit (less : factor * 10 ^ power < count * one) :
    (factor : ℚ) < count * decimalUnit (-(power : Int)) := by
  have lessCast : (factor : ℚ) * 10 ^ power < count * one := by exact_mod_cast less
  rw [← decimalUnit_neg power, ← mul_assoc] at lessCast
  exact lt_of_mul_lt_mul_right lessCast (by positivity)

theorem decimalUnit_lt (less : count * one < factor * 10 ^ power) :
    count * decimalUnit (-(power : Int)) < (factor : ℚ) := by
  have lessCast : (count : ℚ) * one < factor * 10 ^ power := by exact_mod_cast less
  rw [← decimalUnit_neg power, ← mul_assoc] at lessCast
  exact lt_of_mul_lt_mul_right lessCast (by positivity)

end

section

variable {rank nearest : Nat} {digits : Digits}

/-- A number that is that near to seven digits has them, whether they describe a power of ten or not. -/
theorem rounded_of_close (describes : digits.Describes (multiple rank))
    (near : 20 * |(multiple nearest : ℚ) - digits.coefficient * decimalUnit digits.exponent| <
      decimalUnit digits.exponent) : rounded 7 nearest = digits :=
  rounded_eq describes.low describes.high
    (by linarith [abs_nonneg ((multiple nearest : ℚ) - digits.coefficient * decimalUnit digits.exponent)])
    fun _ => near

/-- When the digits are finer than the least spacing, the number itself is read. -/
theorem multiple_eq_of_fine (describes : digits.Describes (multiple rank)) (fine : digits.exponent < -323)
    (small : 2 * |(multiple nearest : ℚ) - digits.coefficient * decimalUnit digits.exponent| ≤ 1) :
    multiple nearest = multiple rank := by
  have unit : decimalUnit digits.exponent * 4 < 1 := by
    have bound := decimalUnit_strictMono.monotone (show digits.exponent ≤ -(324 : Nat) by omega)
    have less : ((4 : Nat) : ℚ) * decimalUnit (-(324 : Nat)) < (1 : Nat) := decimalUnit_lt (by decide +kernel)
    push_cast at less bound
    linarith
  have near := describes.near
  obtain ⟨below, above⟩ := abs_le.mp (le_refl
    |(multiple rank : ℚ) - digits.coefficient * decimalUnit digits.exponent|)
  obtain ⟨belowToo, aboveToo⟩ := abs_le.mp (le_refl
    |(multiple nearest : ℚ) - digits.coefficient * decimalUnit digits.exponent|)
  have lower : (multiple nearest : ℚ) < (multiple rank + 1 : Nat) := by
    push_cast
    linarith
  have upper : (multiple rank : ℚ) < (multiple nearest + 1 : Nat) := by
    push_cast
    linarith
  exact Nat.le_antisymm (Nat.lt_succ_iff.mp (by exact_mod_cast lower))
    (Nat.lt_succ_iff.mp (by exact_mod_cast upper))

/-- When two of the least spacings are less than a unit of the digits, but more than a twentieth of it, the digits
are read back since no number lies between a power of ten and the number below it that rounds to it. -/
theorem rounded_of_middle (describes : digits.Describes (multiple rank)) (middle : digits.exponent = -323)
    (small : 2 * |(multiple nearest : ℚ) - digits.coefficient * decimalUnit digits.exponent| ≤ 1) :
    rounded 7 nearest = digits := by
  have unit : ((2 : Nat) : ℚ) < (1 : Nat) * decimalUnit (-(323 : Nat)) := lt_decimalUnit (by decide +kernel)
  have power : ((4048045 : Nat) : ℚ) < (2000000 : Nat) * decimalUnit (-(323 : Nat)) :=
    lt_decimalUnit (by decide +kernel)
  have next : ((1000000 : Nat) : ℚ) * decimalUnit (-(323 : Nat)) < (2024023 : Nat) :=
    decimalUnit_lt (by decide +kernel)
  rw [show -((323 : Nat) : Int) = digits.exponent from middle.symm] at unit power next
  push_cast at unit power next
  refine rounded_eq describes.low describes.high (by linarith) fun below => ?_
  have many := describes.units.1
  obtain ⟨lower, _⟩ := abs_le.mp (le_refl
    |(multiple nearest : ℚ) - digits.coefficient * decimalUnit digits.exponent|)
  have atLeast : ((2024022 : Nat) : ℚ) < multiple nearest := by
    push_cast
    linarith
  have atMost : (multiple nearest : ℚ) < (2024023 : Nat) := by
    push_cast
    linarith
  have least : 2024022 < multiple nearest := by exact_mod_cast atLeast
  have most : multiple nearest < 2024023 := by exact_mod_cast atMost
  omega

/-- The seven digits of a number are the seven digits of the number that they are read as. -/
theorem rounded_of_near (seven : rounded 7 rank = digits) (describes : digits.Describes (multiple rank))
    (error : 2 * |(multiple nearest : ℚ) - digits.coefficient * decimalUnit digits.exponent| ≤ 1 ∨
      4503599627370496 * (2 * |(multiple nearest : ℚ) - digits.coefficient * decimalUnit digits.exponent|) ≤
        digits.coefficient * decimalUnit digits.exponent) :
    rounded 7 nearest = digits := by
  rcases error with small | relative
  · -- The spacing is the least one, and it depends on its size whether it matters.
    rcases Int.lt_trichotomy digits.exponent (-323) with fine | middle | coarse
    · rw [strictMono_multiple.injective (multiple_eq_of_fine describes fine small), seven]
    · exact rounded_of_middle describes middle small
    · have unit : ((20 : Nat) : ℚ) < (1 : Nat) * decimalUnit (-(322 : Nat)) :=
        lt_decimalUnit (by decide +kernel)
      have bound := decimalUnit_strictMono.monotone (show -((322 : Nat) : Int) ≤ digits.exponent by omega)
      push_cast at unit bound
      exact rounded_of_close describes (by linarith)
  · have factor := decimalUnit_pos digits.exponent
    have few := describes.units.2
    exact rounded_of_close describes (by linarith)

end

theorem decimalUnit_natCast (power : Nat) : decimalUnit power = (10 ^ power * one : Nat) := by
  rw [decimalUnit, zpow_natCast]
  push_cast
  rfl

/-- The greatest finite number lies between two multiples of a power of ten. -/
theorem greatest_bounds :
    17976931 * decimalUnit 302 < 10 * multiple finiteCount ∧
      10 * (multiple finiteCount : ℚ) < 17976932 * decimalUnit 302 := by
  rw [show (302 : Int) = (302 : Nat) from rfl, decimalUnit_natCast,
    show finiteCount = (2045 + 2) * octaveSize from rfl, multiple_octave]
  have lower : 17976931 * (10 ^ 302 * one) < 10 * Nat.pow 2 (2045 + 53) := by decide +kernel
  have upper : 10 * Nat.pow 2 (2045 + 53) < 17976932 * (10 ^ 302 * one) := by decide +kernel
  generalize 10 ^ 302 * one = unit at lower upper ⊢
  generalize Nat.pow 2 (2045 + 53) = greatest at lower upper ⊢
  exact ⟨by exact_mod_cast lower, by exact_mod_cast upper⟩

/-- The seven digits of a finite number do not exceed those of the greatest one. -/
theorem Digits.Describes.le_greatest {digits : Digits} {size : Nat} (describes : digits.Describes size)
    (inRange : size < multiple finiteCount) :
    digits.coefficient * decimalUnit digits.exponent ≤ 1797693 * decimalUnit 302 := by
  have unit := decimalUnit_pos 302
  have sizeCast : (size : ℚ) < multiple finiteCount := by exact_mod_cast inRange
  have greatest := greatest_bounds.2
  have near := describes.near
  obtain ⟨below, above⟩ := abs_le.mp (le_refl |(size : ℚ) - digits.coefficient * decimalUnit digits.exponent|)
  rcases Int.lt_trichotomy digits.exponent 302 with less | same | more
  · have few := describes.units.2
    have bound := decimalUnit_strictMono.monotone (show digits.exponent + 1 ≤ 302 by omega)
    rw [decimalUnit_add_one] at bound
    linarith
  · rw [same] at near below above ⊢
    have few : digits.coefficient ≤ 1797693 := by
      refine Nat.le_of_not_lt fun many => ?_
      have bound : (1797694 : ℚ) * decimalUnit 302 ≤ digits.coefficient * decimalUnit 302 :=
        mul_le_mul_of_nonneg_right (by exact_mod_cast many) unit.le
      linarith
    exact mul_le_mul_of_nonneg_right (by exact_mod_cast few) unit.le
  · have many := describes.units.1
    have bound := decimalUnit_strictMono.monotone (show 302 + 1 ≤ digits.exponent by omega)
    rw [decimalUnit_add_one] at bound
    linarith

/-- The seven digits of a positive number are read as a positive number with the same seven
digits. -/
theorem exists_toBinary64_rounded (negative : Bool) {rank : Fin finiteCount} (positive : 0 < rank.val) :
    ∃ nearest : Fin finiteCount, 0 < nearest.val ∧
      Decimal.toBinary64 ⟨negative, (rounded 7 rank).coefficient, (rounded 7 rank).exponent⟩ =
        finite negative nearest ∧
      rounded 7 nearest = rounded 7 rank := by
  obtain ⟨digits, seven⟩ : ∃ digits, rounded 7 rank = digits := ⟨_, rfl⟩
  have describes := rounded_describes positive
  rw [seven] at describes ⊢
  have size : ((1 : Nat) : ℚ) ≤ multiple rank := by exact_mod_cast multiple_pos positive
  have inRange : ((multiple rank : Nat) : ℚ) < multiple finiteCount := by
    exact_mod_cast strictMono_multiple rank.isLt
  have many := describes.units.1
  have near := describes.near
  obtain ⟨below, above⟩ := abs_le.mp (le_refl
    |(multiple rank : ℚ) - digits.coefficient * decimalUnit digits.exponent|)
  have value : decimalValue digits.coefficient digits.exponent * one =
      digits.coefficient * decimalUnit digits.exponent := by
    rw [decimalValue, decimalUnit]
    ring
  rw [Nat.cast_one] at size
  obtain ⟨low, high⟩ := @value_bounds (decimalValue digits.coefficient digits.exponent)
    (by rw [value]; linarith) (by rw [value]; linarith)
  obtain ⟨numerator, denominator, denominatorPositive, same, read⟩ := toBinary64_eq negative low high
  have error := nearestRank_error denominatorPositive ((congrArg (· * (one : ℚ)) same).symm.trans value)
  have sevenToo := rounded_of_near seven describes error
  have greatest := describes.le_greatest (strictMono_multiple rank.isLt)
  obtain ⟨limit, _⟩ := greatest_bounds
  have unit : ((20 : Nat) : ℚ) < (1 : Nat) * decimalUnit (-(322 : Nat)) := lt_decimalUnit (by decide +kernel)
  have bound := decimalUnit_strictMono.monotone (show -((322 : Nat) : Int) ≤ 302 by decide)
  push_cast at unit bound
  obtain ⟨lower, upper⟩ := abs_le.mp (le_refl |(multiple (nearestRank numerator denominator) : ℚ) -
    digits.coefficient * decimalUnit digits.exponent|)
  have finiteToo : nearestRank numerator denominator < finiteCount := by
    rw [← strictMono_multiple.lt_iff_lt]
    have less : (multiple (nearestRank numerator denominator) : ℚ) < multiple finiteCount := by
      rcases error with small | relative <;> linarith
    exact_mod_cast less
  refine ⟨⟨_, finiteToo⟩, Nat.pos_of_ne_zero fun zero => ?_, ?_, sevenToo⟩
  · change nearestRank numerator denominator = 0 at zero
    have low := describes.low
    rw [← sevenToo, zero, coefficient_rounded_zero] at low
    exact Nat.not_succ_le_zero _ low
  · rw [read, ofRatio]
    exact dif_pos finiteToo

end DelayGenerator.Binary64
