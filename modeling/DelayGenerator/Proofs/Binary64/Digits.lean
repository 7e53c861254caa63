/-
This file shows that the fewest digits of a number are read back as this number.
-/

import DelayGenerator.Proofs.Binary64.Decimal

namespace DelayGenerator.Binary64

theorem quarters_pos : 0 < quarters := Nat.mul_pos (by decide) one_pos

/-- A ratio is divided by the power of ten. -/
theorem scaleDown_eq (numerator denominator : Nat) (exponent : Int) :
    ((scaleDown numerator denominator exponent).1 : ℚ) * (10 ^ exponent * denominator) =
      numerator * (scaleDown numerator denominator exponent).2 := by
  unfold scaleDown
  by_cases whole : 0 ≤ exponent
  · obtain ⟨power, rfl⟩ := Int.eq_ofNat_of_zero_le whole
    rw [if_pos whole]
    change (numerator : ℚ) * (10 ^ (power : Int) * denominator) = numerator * (denominator * 10 ^ power : Nat)
    rw [zpow_natCast]
    push_cast
    ring
  · obtain ⟨power, same⟩ := Int.eq_ofNat_of_zero_le (Int.neg_nonneg_of_nonpos (Int.le_of_not_le whole))
    have back : exponent = -(power : Int) := by omega
    rw [if_neg whole, back, Int.neg_neg]
    change ((numerator * 10 ^ power : Nat) : ℚ) * (10 ^ (-(power : Int)) * denominator) =
      numerator * denominator
    rw [zpow_neg, zpow_natCast]
    push_cast
    field_simp

theorem scaleDown_snd (numerator other denominator : Nat) (exponent : Int) :
    (scaleDown numerator denominator exponent).2 = (scaleDown other denominator exponent).2 := by
  unfold scaleDown
  split <;> rfl

theorem scaleDown_snd_pos (numerator : Nat) {denominator : Nat} (positive : 0 < denominator) (exponent : Int) :
    0 < (scaleDown numerator denominator exponent).2 := by
  unfold scaleDown
  split
  · exact Nat.mul_pos positive (Nat.pow_pos (by decide))
  · exact positive

section

variable {denominator : Nat} (positive : 0 < denominator) (numerator candidate : Nat) (exponent : Int)
include positive

/-- Scaled ratios are compared to whole numbers as the ratios to decimal numbers. -/
theorem scaleDown_le_iff :
    (scaleDown numerator denominator exponent).1 ≤ candidate * (scaleDown numerator denominator exponent).2 ↔
      (numerator : ℚ) ≤ candidate * (10 ^ exponent * denominator) := by
  have scaled := scaleDown_eq numerator denominator exponent
  have unit : (0 : ℚ) < (scaleDown numerator denominator exponent).2 := by
    exact_mod_cast scaleDown_snd_pos numerator positive exponent
  have factor : (0 : ℚ) < 10 ^ exponent * denominator :=
    mul_pos (by positivity) (by exact_mod_cast positive)
  rw [← mul_le_mul_iff_left₀ unit, ← scaled, mul_right_comm, mul_le_mul_iff_left₀ factor]
  exact_mod_cast Iff.rfl

theorem le_scaleDown_iff :
    candidate * (scaleDown numerator denominator exponent).2 ≤ (scaleDown numerator denominator exponent).1 ↔
      candidate * (10 ^ exponent * denominator) ≤ (numerator : ℚ) := by
  have scaled := scaleDown_eq numerator denominator exponent
  have unit : (0 : ℚ) < (scaleDown numerator denominator exponent).2 := by
    exact_mod_cast scaleDown_snd_pos numerator positive exponent
  have factor : (0 : ℚ) < 10 ^ exponent * denominator :=
    mul_pos (by positivity) (by exact_mod_cast positive)
  rw [← mul_le_mul_iff_left₀ unit, ← scaled, mul_right_comm, mul_le_mul_iff_left₀ factor]
  exact_mod_cast Iff.rfl

end

/-- The distance of neighbours on the grid of the multiples of `10 ^ exponent`, in quarters of
`2 ^ -1074`. -/
def gridStep (exponent : Int) : ℚ := 10 ^ exponent * quarters

theorem decimalValue_quarters (coefficient : Nat) (exponent : Int) :
    4 * (decimalValue coefficient exponent * one) = coefficient * gridStep exponent := by
  rw [decimalValue, gridStep, quarters]
  push_cast
  ring

/-- Candidates are accepted if they lie in the interval. -/
theorem Interval.holds_iff (interval : Interval) (candidate : Nat) (exponent : Int) :
    interval.holds candidate exponent = true ↔ interval.Around (decimalValue candidate exponent) := by
  have low := scaleDown_le_iff quarters_pos interval.low candidate exponent
  have aboveLow := le_scaleDown_iff quarters_pos interval.low candidate exponent
  have high := le_scaleDown_iff quarters_pos interval.high candidate exponent
  have belowHigh := scaleDown_le_iff quarters_pos interval.high candidate exponent
  rw [scaleDown_snd interval.high interval.low] at high belowHigh
  unfold Interval.holds Interval.Around
  rw [decimalValue_quarters]
  cases same : interval.closed with
  | true =>
      simp only [if_true, Bool.and_eq_true, decide_eq_true_eq, low, high]
      simp only [gridStep, Bool.true_eq_false, false_imp_iff, and_true]
  | false =>
      simp only [Bool.false_eq_true, if_false, Bool.and_eq_true, decide_eq_true_eq, forall_const]
      rw [← Nat.not_le, aboveLow, ← Nat.not_le, belowHigh, not_le, not_le]
      constructor
      · rintro ⟨above, below⟩
        exact ⟨above.le, below.le, above.ne, below.ne⟩
      · rintro ⟨above, below, apart, apartToo⟩
        exact ⟨lt_of_le_of_ne above apart, lt_of_le_of_ne below apartToo⟩

/-- A ratio lies between the powers of ten at its top. -/
theorem top_bounds {numerator denominator : Nat} (some : 0 < numerator) (positive : 0 < denominator) :
    10 ^ (top numerator denominator - 1) ≤ (numerator : ℚ) / denominator ∧
      (numerator : ℚ) / denominator ≤ 10 ^ top numerator denominator := by
  have someCast : (0 : ℚ) < numerator := by exact_mod_cast some
  have positiveCast : (0 : ℚ) < denominator := by exact_mod_cast positive
  unfold top
  split
  next large =>
    have digits := Text.length_allDigits_pos (numerator / denominator)
    have low : 10 ^ ((Text.allDigits (numerator / denominator)).length - 1) * denominator ≤ numerator :=
      (Nat.le_div_iff_mul_le positive).mp (Text.pow_length_allDigits_le (Nat.div_pos large positive).ne')
    have high : numerator ≤ 10 ^ (Text.allDigits (numerator / denominator)).length * denominator :=
      ((Nat.div_lt_iff_lt_mul positive).mp (Text.lt_pow_length_allDigits _)).le
    rw [le_div_iff₀ positiveCast, div_le_iff₀ positiveCast,
      show ((Text.allDigits (numerator / denominator)).length : Int) - 1 =
        ((Text.allDigits (numerator / denominator)).length - 1 : Nat) by omega, zpow_natCast, zpow_natCast]
    exact ⟨by exact_mod_cast low, by exact_mod_cast high⟩
  next small =>
    have digits := Text.length_allDigits_pos (denominator / numerator)
    have less : numerator ≤ denominator := Nat.le_of_not_le small
    have low : 10 ^ ((Text.allDigits (denominator / numerator)).length - 1) * numerator ≤ denominator :=
      (Nat.le_div_iff_mul_le some).mp (Text.pow_length_allDigits_le (Nat.div_pos less some).ne')
    have high : denominator ≤ 10 ^ (Text.allDigits (denominator / numerator)).length * numerator :=
      ((Nat.div_lt_iff_lt_mul some).mp (Text.lt_pow_length_allDigits _)).le
    rw [le_div_iff₀ positiveCast, div_le_iff₀ positiveCast,
      show 1 - ((Text.allDigits (denominator / numerator)).length : Int) - 1 =
        -((Text.allDigits (denominator / numerator)).length : Int) by omega,
      show 1 - ((Text.allDigits (denominator / numerator)).length : Int) =
        -((Text.allDigits (denominator / numerator)).length - 1 : Nat) by omega,
      zpow_neg, zpow_neg, zpow_natCast, zpow_natCast,
      inv_mul_le_iff₀ (by positivity), le_inv_mul_iff₀ (by positivity)]
    exact ⟨by exact_mod_cast high, by exact_mod_cast low⟩

theorem multiple_pos {rank : Nat} (positive : 0 < rank) : 0 < multiple rank :=
  Nat.lt_of_le_of_lt (Nat.zero_le _) (strictMono_multiple positive)

section

variable {tie : Tie} {interval : Interval} {exponent : Int} {coefficient : Nat}

/-- What is found on a grid lies in the interval. -/
theorem Interval.holds_of_onGrid (found : interval.onGrid? tie exponent = some coefficient) :
    interval.holds coefficient exponent = true := by
  simp only [Interval.onGrid?] at found
  generalize (scaleDown interval.middle quarters exponent).1 /
    (scaleDown interval.middle quarters exponent).2 = below at found
  generalize (scaleDown interval.middle quarters exponent).1 %
    (scaleDown interval.middle quarters exponent).2 = rest at found
  cases lower : interval.holds below exponent <;> cases upper : interval.holds (below + 1) exponent <;>
    rw [lower, upper] at found
  · contradiction
  · exact Option.some.inj found ▸ upper
  · exact Option.some.inj found ▸ lower
  · -- Both neighbours are candidates.
    have either (taken : Option Nat) (one : taken = some below ∨ taken = some (below + 1))
        (same : taken = some coefficient) : interval.holds coefficient exponent = true := by
      rcases one with rfl | rfl
      · exact Option.some.inj same ▸ lower
      · exact Option.some.inj same ▸ upper
    refine either _ ?_ found
    dsimp only
    split
    · exact Or.inl rfl
    · split
      · exact Or.inr rfl
      · cases tie with
        | up => exact Or.inr rfl
        | toEven =>
            rcases Nat.mod_two_eq_zero_or_one below with even | odd
            · exact Or.inl (by simp [even])
            · exact Or.inr (by simp [odd])

/-- Something is found on a grid if one of the neighbours of the number lies in the interval. -/
theorem Interval.exists_onGrid (tie : Tie) {below : Nat}
    (same : (scaleDown interval.middle quarters exponent).1 /
      (scaleDown interval.middle quarters exponent).2 = below)
    (inside : interval.holds below exponent = true ∨ interval.holds (below + 1) exponent = true) :
    ∃ coefficient, interval.onGrid? tie exponent = some coefficient := by
  simp only [Interval.onGrid?, same]
  cases lower : interval.holds below exponent <;> cases upper : interval.holds (below + 1) exponent
  · simp [lower, upper] at inside
  · exact ⟨_, rfl⟩
  · exact ⟨_, rfl⟩
  · dsimp only
    split
    · exact ⟨_, rfl⟩
    · split
      · exact ⟨_, rfl⟩
      · cases tie <;> exact ⟨_, rfl⟩

/-- If one of the grids has a hit, the first hit lies in the interval. -/
theorem Interval.holds_firstHit (tie : Tie) {count step : Nat} (early : step < count)
    (hit : ∃ coefficient, interval.onGrid? tie (exponent - step) = some coefficient) :
    interval.holds (interval.firstHit tie count exponent).coefficient
      (interval.firstHit tie count exponent).exponent = true := by
  induction count generalizing exponent step with
  | zero => exact absurd early (Nat.not_lt_zero step)
  | succ count inductionHypothesis =>
      rw [Interval.firstHit]
      cases found : interval.onGrid? tie exponent with
      | some coefficient => exact holds_of_onGrid found
      | none =>
          cases step with
          | zero =>
              rw [Int.ofNat_zero, Int.sub_zero, found] at hit
              obtain ⟨_, absurd⟩ := hit
              contradiction
          | succ step =>
              refine inductionHypothesis (Nat.lt_of_succ_lt_succ early) ?_
              rwa [show exponent - 1 - (step : Int) = exponent - ((step + 1 : Nat) : Int) by omega]

end

/-- The ends of the interval of a positive number, in quarters. -/
theorem interval_ends {rank : Nat} (positive : 0 < rank) :
    ((interval rank).low : ℚ) = 4 * multiple rank - reach rank * 2 ^ exponent rank ∧
      ((interval rank).high : ℚ) = 4 * multiple rank + 2 * 2 ^ exponent rank := by
  have bound : 2 ^ exponent rank ≤ multiple rank := Nat.le_mul_of_pos_left _ (significand_pos positive)
  have inside : reach rank * 2 ^ exponent rank ≤ 4 * multiple rank := by
    rcases reach_cases rank with ⟨reach, _⟩ | reach <;> rw [reach] <;> omega
  rw [interval_eq]
  constructor
  · change ((4 * multiple rank - reach rank * 2 ^ exponent rank : Nat) : ℚ) = _
    rw [Nat.cast_sub inside]
    push_cast
    rfl
  · change ((4 * multiple rank + 2 * 2 ^ exponent rank : Nat) : ℚ) = _
    push_cast
    rfl

/-- Seventeen digits suffice: on a grid that is `10 ^ 16` times as fine as a number, one of its
neighbours lies in its interval. -/
theorem exists_onGrid_of_fine (tie : Tie) {rank : Nat} {step : Int} (positive : 0 < rank)
    (fine : 10 ^ 16 * gridStep step ≤ 4 * multiple rank) :
    ∃ coefficient, (interval rank).onGrid? tie step = some coefficient := by
  have unit := scaleDown_snd_pos (interval rank).middle quarters_pos step
  have middle : ((interval rank).middle : ℚ) = 4 * multiple rank := by
    rw [interval_eq]
    push_cast
    rfl
  obtain ⟨low, high⟩ := interval_ends positive
  -- The number lies between two neighbours on the grid.
  obtain ⟨below, same⟩ : ∃ below, (scaleDown (interval rank).middle quarters step).1 /
    (scaleDown (interval rank).middle quarters step).2 = below := ⟨_, rfl⟩
  have under : below * gridStep step ≤ 4 * multiple rank := by
    rw [← middle, gridStep, ← le_scaleDown_iff quarters_pos, ← Nat.le_div_iff_mul_le unit, same]
  have beyond : 4 * multiple rank < ((below + 1 : Nat) : ℚ) * gridStep step := by
    rw [← middle, ← not_le, gridStep, ← le_scaleDown_iff quarters_pos, ← Nat.le_div_iff_mul_le unit, same]
    exact Nat.not_succ_le_self below
  refine Interval.exists_onGrid tie same ?_
  rw [Interval.holds_iff, Interval.holds_iff, Interval.Around, Interval.Around, decimalValue_quarters,
    decimalValue_quarters, low, high]
  have spacing : (0 : ℚ) < 2 ^ exponent rank := by positivity
  have size : (multiple rank : ℚ) = significand rank * 2 ^ exponent rank := by
    have size : multiple rank = significand rank * 2 ^ exponent rank := rfl
    exact_mod_cast size
  rw [size] at fine under beyond ⊢
  push_cast at beyond ⊢
  rcases reach_cases rank with ⟨reach, full⟩ | reach
  · -- At a power of two the neighbour above is near enough.
    have power : octaveSize = 4503599627370496 := rfl
    rw [full, power] at fine under beyond ⊢
    rw [reach]
    push_cast at fine under beyond ⊢
    have near : (below + 1) * gridStep step <
        4 * (4503599627370496 * 2 ^ exponent rank) + 2 * 2 ^ exponent rank := by
      linarith
    exact Or.inr ⟨by linarith, near.le, fun _ => ⟨by linarith, near.ne⟩⟩
  · rw [reach, Nat.cast_ofNat]
    have small : (significand rank : ℚ) < 9007199254740992 := by
      have small := significand_lt rank
      have power : 2 * octaveSize = 9007199254740992 := rfl
      rw [power] at small
      exact_mod_cast small
    have bound := mul_lt_mul_of_pos_right small spacing
    rcases lt_or_ge (4 * (significand rank * 2 ^ exponent rank : ℚ) - 2 * 2 ^ exponent rank)
      (below * gridStep step) with near | far
    · exact Or.inl ⟨near.le, by linarith, fun _ => ⟨near.ne, by linarith⟩⟩
    · have near : (below + 1) * gridStep step <
          4 * (significand rank * 2 ^ exponent rank) + 2 * 2 ^ exponent rank := by linarith
      exact Or.inr ⟨by linarith, near.le, fun _ => ⟨by linarith, near.ne⟩⟩

/-- The number that digits stand for. -/
def Digits.value (digits : Digits) : ℚ := decimalValue digits.coefficient digits.exponent

/-- Moving zeros does not change the number. -/
theorem Digits.value_strip (count : Nat) (digits : Digits) : (digits.strip count).value = digits.value := by
  induction count generalizing digits with
  | zero => rfl
  | succ count inductionHypothesis =>
      rw [Digits.strip]
      split
      next zeroLast =>
        rw [inductionHypothesis]
        have whole : digits.coefficient = digits.coefficient / 10 * 10 :=
          (Nat.div_mul_cancel (Nat.dvd_of_mod_eq_zero (beq_iff_eq.mp zeroLast))).symm
        rw [Digits.value, Digits.value, decimalValue, decimalValue, zpow_add_one₀ (by norm_num)]
        rw [show (digits.coefficient : ℚ) = (digits.coefficient / 10 * 10 : Nat) by rw [← whole]]
        push_cast
        ring
      next => rfl

/-- The fewest digits of a number lie in its interval. -/
theorem shortest_around (tie : Tie) {rank : Nat} (positive : 0 < rank) :
    (interval rank).Around (shortest tie rank).value := by
  have middle : (interval rank).middle = 4 * multiple rank := by rw [interval_eq]
  have some : 0 < (interval rank).middle := by
    rw [middle]
    exact Nat.mul_pos (by decide) (multiple_pos positive)
  obtain ⟨low, _⟩ := top_bounds some quarters_pos
  have scale : (0 : ℚ) < quarters := by exact_mod_cast quarters_pos
  have fine : 10 ^ 16 * gridStep (top (interval rank).middle quarters - 1 - (16 : Nat)) ≤
      4 * multiple rank := by
    rw [le_div_iff₀ scale, middle] at low
    rw [gridStep, middle, zpow_sub₀ (by norm_num), zpow_natCast]
    push_cast at low
    refine le_trans (le_of_eq ?_) low
    field_simp
  rw [shortest, Digits.value_strip, Digits.value, ← Interval.holds_iff]
  exact Interval.holds_firstHit tie (by decide) (exists_onGrid_of_fine tie positive fine)

/-- What the fewest digits of a number stand for is read as this number. -/
theorem toBinary64_of_shortest (negative : Bool) (tie : Tie) {rank : Fin finiteCount} (positive : 0 < rank.val)
    {coefficient : Nat} {exponent : Int}
    (same : decimalValue coefficient exponent = (shortest tie rank).value) :
    Decimal.toBinary64 ⟨negative, coefficient, exponent⟩ = finite negative rank :=
  toBinary64_of_around negative positive (same ▸ shortest_around tie positive)

theorem coefficient_shortest_ne_zero (tie : Tie) {rank : Fin finiteCount} (positive : 0 < rank.val) :
    (shortest tie rank).coefficient ≠ 0 := by
  intro zero
  have some : (10 : ℚ) ^ (-400 : Int) < (shortest tie rank).value :=
    ((shortest_around tie positive).bounds positive rank.isLt).1
  rw [Digits.value, decimalValue, zero, Nat.cast_zero, zero_mul] at some
  exact absurd some (not_lt_of_gt (by positivity))

theorem Interval.le_exponent_firstHit (tie : Tie) (interval : Interval) (count : Nat) (exponent : Int) :
    exponent - count ≤ (interval.firstHit tie count exponent).exponent := by
  induction count generalizing exponent with
  | zero => simp [Interval.firstHit]
  | succ count inductionHypothesis =>
      rw [Interval.firstHit]
      split
      · dsimp only
        omega
      · have later := inductionHypothesis (exponent - 1)
        omega

theorem Digits.le_exponent_strip (count : Nat) (digits : Digits) : digits.exponent ≤ (digits.strip count).exponent := by
  induction count generalizing digits with
  | zero => exact Int.le_refl _
  | succ count inductionHypothesis =>
      rw [Digits.strip]
      split
      · exact (Int.le_add_one (Int.le_refl _)).trans (inductionHypothesis _)
      · exact Int.le_refl _

/-- The fewest digits of a number fit in a machine word. -/
theorem coefficient_shortest_le (tie : Tie) {rank : Nat} (positive : 0 < rank) :
    (shortest tie rank).coefficient ≤ 2 * 10 ^ 18 := by
  obtain ⟨_, below, _⟩ := shortest_around tie positive
  have middle : (interval rank).middle = 4 * multiple rank := by rw [interval_eq]
  have some : 0 < (interval rank).middle := by
    rw [middle]
    exact Nat.mul_pos (by decide) (multiple_pos positive)
  obtain ⟨_, small⟩ := top_bounds some quarters_pos
  have lowest : top (interval rank).middle quarters - 1 - (17 : Nat) ≤ (shortest tie rank).exponent :=
    (Interval.le_exponent_firstHit tie _ 17 _).trans (Digits.le_exponent_strip 17 _)
  generalize top (interval rank).middle quarters = highest at small lowest
  have scale : (0 : ℚ) < one := by exact_mod_cast one_pos
  have spacing : 2 ^ exponent rank ≤ multiple rank := Nat.le_mul_of_pos_left _ (significand_pos positive)
  have spacingCast : (2 : ℚ) ^ exponent rank ≤ multiple rank := by exact_mod_cast spacing
  rw [div_le_iff₀ (by exact_mod_cast quarters_pos), middle, quarters] at small
  push_cast at small
  -- The digits are multiples of a unit that is not much smaller than the number.
  have unit := zpow_le_zpow_right₀ (show (1 : ℚ) ≤ 10 by norm_num)
    (show highest - (18 : Nat) ≤ (shortest tie rank).exponent by omega)
  rw [zpow_sub₀ (by norm_num), zpow_natCast, div_le_iff₀ (by positivity)] at unit
  rw [(interval_ends positive).2, Digits.value, decimalValue] at below
  have value : (shortest tie rank).coefficient * (10 ^ (shortest tie rank).exponent * (one : ℚ)) ≤
      2 * (10 ^ (shortest tie rank).exponent * 10 ^ 18 * one) := by
    have unitScaled := mul_le_mul_of_nonneg_right unit scale.le
    linarith
  have some : (0 : ℚ) < 10 ^ (shortest tie rank).exponent * one := mul_pos (by positivity) scale
  have bound : ((shortest tie rank).coefficient : ℚ) ≤ 2 * 10 ^ 18 :=
    le_of_mul_le_mul_right (by linarith) some
  exact_mod_cast bound

end DelayGenerator.Binary64
