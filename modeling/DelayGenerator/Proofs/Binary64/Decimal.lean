/-
This file shows which decimal numbers are read as a given number of the format.
-/

import DelayGenerator.Proofs.Binary64.Rounding
import DelayGenerator.Proofs.Text.Numeral
import Mathlib.Algebra.Order.Field.Power
import Mathlib.Data.Rat.Defs
import Mathlib.Algebra.Order.Ring.Rat
import Mathlib.Tactic.FieldSimp
import Mathlib.Tactic.NormNum
import Mathlib.Tactic.Positivity

namespace DelayGenerator

namespace Binary64

/-- The number that a coefficient and a decimal exponent stand for. -/
def decimalValue (coefficient : Nat) (exponent : Int) : ℚ := coefficient * 10 ^ exponent

theorem decimalValue_of_nonneg (coefficient : Nat) {exponent : Int} (whole : 0 ≤ exponent) :
    decimalValue coefficient exponent = (coefficient * Nat.pow 10 exponent.toNat : Nat) := by
  obtain ⟨power, rfl⟩ := Int.eq_ofNat_of_zero_le whole
  change (coefficient : ℚ) * 10 ^ (power : Int) = (coefficient * 10 ^ power : Nat)
  rw [zpow_natCast]
  push_cast
  rfl

theorem decimalValue_of_neg (coefficient : Nat) {exponent : Int} (fraction : ¬ 0 ≤ exponent) :
    decimalValue coefficient exponent = coefficient / (Nat.pow 10 (-exponent).toNat : Nat) := by
  obtain ⟨power, same⟩ := Int.eq_ofNat_of_zero_le (Int.neg_nonneg_of_nonpos (Int.le_of_not_le fraction))
  have back : exponent = -(power : Int) := by omega
  subst back
  change (coefficient : ℚ) * 10 ^ (-(power : Int)) = coefficient / ((10 ^ (-(-(power : Int))).toNat : Nat) : ℚ)
  rw [Int.neg_neg, Int.toNat_natCast, zpow_neg, zpow_natCast]
  push_cast
  rfl

/-- Whether a number lies in an interval. The ends belong to it only if it is closed. -/
def Interval.Around (interval : Interval) (value : ℚ) : Prop :=
  interval.low ≤ 4 * (value * one) ∧ 4 * (value * one) ≤ interval.high ∧
    (interval.closed = false → (interval.low : ℚ) ≠ 4 * (value * one) ∧ 4 * (value * one) ≠ interval.high)

theorem Interval.contains_iff {interval : Interval} {numerator denominator : Nat}
    (positive : 0 < denominator) :
    interval.Contains numerator denominator ↔ interval.Around ((numerator : ℚ) / denominator) := by
  have positive : (0 : ℚ) < denominator := Nat.cast_pos.mpr positive
  have scaled : 4 * ((numerator : ℚ) / denominator * one) =
      (4 * (numerator * one) : Nat) / denominator := by
    push_cast
    ring
  rw [Contains, Around, scaled, le_div_iff₀ positive, div_le_iff₀ positive]
  have low : (interval.low : ℚ) ≠ (4 * (numerator * one) : Nat) / denominator ↔
      interval.low * denominator ≠ 4 * (numerator * one) := by
    rw [Ne, eq_div_iff positive.ne']
    exact_mod_cast Iff.rfl
  have high : ((4 * (numerator * one) : Nat) : ℚ) / denominator ≠ interval.high ↔
      4 * (numerator * one) ≠ interval.high * denominator := by
    rw [Ne, div_eq_iff positive.ne']
    exact_mod_cast Iff.rfl
  rw [low, high]
  exact_mod_cast Iff.rfl

theorem nearestRank_of_around {numerator denominator rank : Nat} {value : ℚ} (positive : 0 < denominator)
    (same : value = (numerator : ℚ) / denominator) (inside : (interval rank).Around value) :
    nearestRank numerator denominator = rank :=
  nearestRank_eq positive ((Interval.contains_iff positive).mpr (same ▸ inside))

theorem decimalValue_lt (coefficient : Nat) (exponent : Int) :
    decimalValue coefficient exponent < 10 ^ (exponent + (Text.allDigits coefficient).length) := by
  have small : (coefficient : ℚ) < 10 ^ (Text.allDigits coefficient).length := by
    exact_mod_cast Text.lt_pow_length_allDigits coefficient
  rw [decimalValue, add_comm, zpow_add₀ (by norm_num), zpow_natCast]
  exact mul_lt_mul_of_pos_right small (by positivity)

theorem le_decimalValue {coefficient : Nat} (some : coefficient ≠ 0) (exponent : Int) :
    10 ^ (exponent + (Text.allDigits coefficient).length - 1) ≤ decimalValue coefficient exponent := by
  have large : (10 : ℚ) ^ ((Text.allDigits coefficient).length - 1) ≤ coefficient := by
    exact_mod_cast Text.pow_length_allDigits_le some
  have positive := Text.length_allDigits_pos coefficient
  have split : exponent + (Text.allDigits coefficient).length - 1 =
      ((Text.allDigits coefficient).length - 1 : Nat) + exponent := by omega
  rw [split, decimalValue, zpow_add₀ (by norm_num), zpow_natCast]
  exact mul_le_mul_of_nonneg_right large (by positivity)

/-- A decimal number that is neither too small nor too great is read as the number nearest to it. -/
theorem toBinary64_eq (negative : Bool) {coefficient : Nat} {exponent : Int}
    (low : 10 ^ (-400 : Int) < decimalValue coefficient exponent)
    (high : decimalValue coefficient exponent < 10 ^ (399 : Int)) :
    ∃ numerator denominator : Nat, 0 < denominator ∧
      decimalValue coefficient exponent = (numerator : ℚ) / denominator ∧
      Decimal.toBinary64 ⟨negative, coefficient, exponent⟩ = ofRatio negative numerator denominator := by
  have some : coefficient ≠ 0 := by
    rintro rfl
    have positive : (0 : ℚ) < 10 ^ (-400 : Int) := by positivity
    rw [decimalValue, Nat.cast_zero, zero_mul] at low
    exact absurd low (not_lt.mpr positive.le)
  have above : -400 < exponent + (Text.allDigits coefficient).length :=
    (zpow_lt_zpow_iff_right₀ (by norm_num)).mp (low.trans (decimalValue_lt coefficient exponent))
  have below : exponent + (Text.allDigits coefficient).length - 1 < 399 :=
    (zpow_lt_zpow_iff_right₀ (by norm_num)).mp ((le_decimalValue some exponent).trans_lt high)
  have inRange : ¬ exponent + (Text.allDigits coefficient).length < -400 := by omega
  have inRangeToo : ¬ 400 < exponent + (Text.allDigits coefficient).length := by omega
  by_cases whole : 0 ≤ exponent
  · refine ⟨coefficient * Nat.pow 10 exponent.toNat, 1, Nat.one_pos, ?_, ?_⟩
    · rw [decimalValue_of_nonneg coefficient whole, Nat.cast_one, div_one]
    · simp [Decimal.toBinary64, some, inRange, inRangeToo, whole]
  · refine ⟨coefficient, Nat.pow 10 (-exponent).toNat, Nat.pow_pos (by decide),
      decimalValue_of_neg coefficient whole, ?_⟩
    simp [Decimal.toBinary64, some, inRange, inRangeToo, whole]

/-- From the third octave on, each begins at a power of two. -/
theorem multiple_octave (octave : Nat) : multiple ((octave + 2) * octaveSize) = Nat.pow 2 (octave + 53) := by
  have full : multiple (octave * octaveSize + 2 * octaveSize) = 2 * octaveSize * Nat.pow 2 octave :=
    multiple_eq (Nat.le_refl _) fun _ => Nat.le_mul_of_pos_left _ Nat.two_pos
  rw [Nat.add_mul, full]
  change 2 * 2 ^ 52 * 2 ^ octave = 2 ^ (octave + 53)
  ring

theorem two_le_interval_low {rank : Nat} (positive : 0 < rank) : 2 ≤ (interval rank).low := by
  have spacing : 1 ≤ Nat.pow 2 (exponent rank) := Nat.two_pow_pos _
  have bound : Nat.pow 2 (exponent rank) ≤ multiple rank := Nat.le_mul_of_pos_left _ (significand_pos positive)
  rw [interval_eq]
  rcases reach_cases rank with ⟨reach, _⟩ | reach <;> rw [reach] <;> dsimp only <;> omega

theorem interval_high_le {rank : Nat} (inRange : rank < finiteCount) :
    (interval rank).high ≤ 4 * multiple finiteCount := by
  have next := multiple_succ rank
  have bound : multiple (rank + 1) ≤ multiple finiteCount := strictMono_multiple.monotone inRange
  rw [interval_eq]
  dsimp only
  omega

/-- The numbers of the format are neither too small nor too great to be read. -/
theorem value_bounds {value : ℚ} (low : 1 ≤ 2 * (value * one)) (high : value * one ≤ 2 * multiple finiteCount) :
    10 ^ (-400 : Int) < value ∧ value < 10 ^ (399 : Int) := by
  have scale : (0 : ℚ) < one := by exact_mod_cast one_pos
  constructor
  · have tiny : (one : ℚ) * 2 < 10 ^ 400 := by
      have less : one * 2 < 10 ^ 400 := by decide +kernel
      exact_mod_cast less
    have positive : 0 < value := by
      by_contra nonpos
      have nonpos : value * one ≤ 0 := mul_nonpos_of_nonpos_of_nonneg (not_lt.mp nonpos) scale.le
      linarith
    have large : (1 : ℚ) < value * 10 ^ 400 := by
      calc
        1 ≤ value * (one * 2) := by linarith only [low]
        _ < value * 10 ^ 400 := mul_lt_mul_of_pos_left tiny positive
    rw [zpow_neg, inv_lt_iff_one_lt_mul₀ (by positivity), zpow_ofNat]
    exact large
  · have huge : 2 * ((multiple finiteCount : Nat) : ℚ) < 10 ^ 399 * one := by
      have less : 2 * multiple finiteCount < 10 ^ 399 * one := by
        rw [show finiteCount = (2045 + 2) * octaveSize from rfl, multiple_octave]
        decide +kernel
      exact_mod_cast less
    exact lt_of_mul_lt_mul_right (high.trans_lt huge) scale.le

theorem Interval.Around.bounds {rank : Nat} {value : ℚ} (inside : (interval rank).Around value)
    (positive : 0 < rank) (inRange : rank < finiteCount) :
    10 ^ (-400 : Int) < value ∧ value < 10 ^ (399 : Int) := by
  obtain ⟨above, below, _⟩ := inside
  have low : (2 : ℚ) ≤ (interval rank).low := by exact_mod_cast two_le_interval_low positive
  have high : ((interval rank).high : ℚ) ≤ 4 * multiple finiteCount := by
    exact_mod_cast interval_high_le inRange
  have some : (0 : ℚ) ≤ multiple finiteCount := Nat.cast_nonneg _
  exact value_bounds (by linarith) (by linarith)

/-- A decimal number in the interval of a number is read as that number. -/
theorem toBinary64_of_around (negative : Bool) {rank : Fin finiteCount} {coefficient : Nat} {exponent : Int}
    (positive : 0 < rank.val) (inside : (interval rank).Around (decimalValue coefficient exponent)) :
    Decimal.toBinary64 ⟨negative, coefficient, exponent⟩ = finite negative rank := by
  obtain ⟨low, high⟩ := inside.bounds positive rank.isLt
  obtain ⟨numerator, denominator, positive, same, read⟩ := toBinary64_eq negative low high
  rw [read, ofRatio, nearestRank_of_around positive same inside]
  exact dif_pos rank.isLt

/-- A whole number of a machine word is read as the number nearest to it. -/
theorem toBinary64_whole (negative : Bool) {coefficient : Nat} (small : coefficient ≤ Text.wordLimit) :
    Decimal.toBinary64 ⟨negative, coefficient, 0⟩ = ofRatio negative coefficient 1 := by
  by_cases zero : coefficient = 0
  · subst zero
    cases negative <;> decide +kernel
  · have few : (Text.allDigits coefficient).length ≤ 20 :=
      (Text.length_allDigits_le_iff (by decide)).mpr (Nat.lt_of_le_of_lt small (by decide))
    have low : ¬ (0 : Int) + (Text.allDigits coefficient).length < -400 := by omega
    have high : ¬ (400 : Int) < 0 + (Text.allDigits coefficient).length := by omega
    simp only [Decimal.toBinary64, beq_eq_false_iff_ne.mpr zero, low, high]
    simp

end Binary64

end DelayGenerator
