/-
This file describes rounding: which ratios round to a number of the format, and how far a ratio may
be from the number that it rounds to.
-/

import DelayGenerator.Binary64.Shortest
import Mathlib.Order.Monotone.Basic
import Mathlib.Tactic.Linarith
import Mathlib.Tactic.Ring

namespace DelayGenerator.Binary64

section

variable {numerator denominator quotient : Nat}

/-- The nearest whole number is no further away than a half. -/
theorem roundRatio_near (numerator : Nat) (positive : 0 < denominator) :
    2 * (roundRatio numerator denominator * denominator) ≤ 2 * numerator + denominator ∧
      2 * numerator ≤ 2 * (roundRatio numerator denominator * denominator) + denominator := by
  have whole := Nat.div_add_mod numerator denominator
  have small := Nat.mod_lt numerator positive
  have odd := Nat.mod_two_eq_zero_or_one (numerator / denominator)
  rw [Nat.mul_comm] at whole
  simp only [roundRatio]
  generalize numerator / denominator = below at *
  generalize numerator % denominator = rest at *
  split
  · omega
  · have above : (below + 1) * denominator = below * denominator + denominator := by ring
    split
    · omega
    · rcases odd with even | odd
      · rw [even, Nat.add_zero]
        omega
      · rw [odd]
        omega

/-- A whole number is the nearest one if it is no further away than a half, and less far if it is
odd. -/
theorem roundRatio_eq (positive : 0 < denominator)
    (low : 2 * (quotient * denominator) ≤ 2 * numerator + denominator)
    (high : 2 * numerator ≤ 2 * (quotient * denominator) + denominator)
    (strict : quotient % 2 = 1 → 2 * (quotient * denominator) ≠ 2 * numerator + denominator ∧
      2 * numerator ≠ 2 * (quotient * denominator) + denominator) :
    roundRatio numerator denominator = quotient := by
  have whole := Nat.div_add_mod numerator denominator
  have small := Nat.mod_lt numerator positive
  rw [Nat.mul_comm] at whole
  simp only [roundRatio]
  generalize numerator / denominator = below at *
  generalize numerator % denominator = rest at *
  have above : (below + 1) * denominator = below * denominator + denominator := by ring
  -- The number is one of the two neighbours of the ratio.
  have neighbours : quotient = below ∨ quotient = below + 1 := by
    rcases Nat.lt_trichotomy quotient below with less | same | more
    · have bound := Nat.mul_le_mul_right denominator (Nat.succ_le_of_lt less)
      rw [Nat.succ_mul] at bound
      omega
    · exact Or.inl same
    · rcases Nat.eq_or_lt_of_le (Nat.succ_le_of_lt more) with same | more
      · exact Or.inr same.symm
      · have bound := Nat.mul_le_mul_right denominator (Nat.succ_le_of_lt more)
        rw [Nat.succ_eq_add_one, Nat.succ_mul, above] at bound
        omega
  rcases neighbours with rfl | rfl
  · split
    · rfl
    · split
      · omega
      · have even : quotient % 2 = 0 := by
          refine (Nat.mod_two_eq_zero_or_one quotient).resolve_right fun odd => ?_
          obtain ⟨_, different⟩ := strict odd
          omega
        rw [even, Nat.add_zero]
  · rw [above] at low high strict
    split
    · omega
    · split
      · rfl
      · have odd : below % 2 = 1 := by
          refine (Nat.mod_two_eq_zero_or_one below).resolve_left fun even => ?_
          obtain ⟨different, _⟩ := strict (by omega)
          omega
        rw [odd]

end

theorem octaveSize_pos : 0 < octaveSize := Nat.pow_pos (by decide)

theorem one_pos : 0 < one := by
  unfold one
  generalize 1074 = exponent
  exact Nat.two_pow_pos exponent

/-- A rank counts whole octaves and the significand in the last one. -/
theorem rank_eq (rank : Nat) : rank = exponent rank * octaveSize + significand rank := by
  have positive := octaveSize_pos
  unfold exponent significand
  split
  next small => simp [Nat.div_eq_of_lt small]
  next large =>
    have some : 0 < rank / octaveSize := Nat.div_pos (Nat.le_of_not_lt large) positive
    have whole := Nat.div_add_mod rank octaveSize
    obtain ⟨octave, same⟩ := Nat.exists_eq_add_of_lt some
    rw [same] at whole ⊢
    rw [Nat.zero_add, Nat.mul_comm, Nat.succ_mul] at whole
    simp only [Nat.zero_add, Nat.add_sub_cancel]
    omega

theorem significand_lt (rank : Nat) : significand rank < 2 * octaveSize := by
  have positive := octaveSize_pos
  have small := Nat.mod_lt rank positive
  unfold significand
  split <;> omega

/-- Beyond the first octave, a significand has all its bits. -/
theorem le_significand {rank : Nat} (beyond : exponent rank ≠ 0) : octaveSize ≤ significand rank := by
  unfold significand
  split
  next small => exact absurd (by simp [exponent, Nat.div_eq_of_lt small]) beyond
  next => exact Nat.le_add_right _ _

theorem significand_pos {rank : Nat} (positive : 0 < rank) : 0 < significand rank := by
  have split := rank_eq rank
  have size := octaveSize_pos
  by_cases first : exponent rank = 0
  · rw [first] at split
    omega
  · exact size.trans_le (le_significand first)

/-- The size at a significand counted in a given octave, or just beyond it. -/
theorem multiple_eq {octave significand : Nat} (inside : significand ≤ 2 * octaveSize)
    (full : octave ≠ 0 → octaveSize ≤ significand) :
    multiple (octave * octaveSize + significand) = significand * Nat.pow 2 octave := by
  have positive := octaveSize_pos
  rcases Nat.eq_or_lt_of_le inside with rfl | small
  · -- The next octave begins here.
    have rank : octave * octaveSize + 2 * octaveSize = (octave + 2) * octaveSize := by ring
    have beyond : ¬ (octave + 2) * octaveSize < octaveSize := by
      rw [Nat.not_lt]
      exact Nat.le_mul_of_pos_left _ (by omega)
    have power : Nat.pow 2 (octave + 1) = 2 * Nat.pow 2 octave := Nat.pow_succ'
    rw [rank, multiple, significand, if_neg beyond, exponent, Nat.mul_mod_left,
      Nat.mul_div_cancel _ positive, Nat.add_zero, show octave + 2 - 1 = octave + 1 from rfl, power]
    ring
  · rcases Nat.lt_or_ge significand octaveSize with low | high
    · have first : octave = 0 := Classical.byContradiction fun later => by
        have := full later
        omega
      subst first
      rw [Nat.zero_mul, Nat.zero_add, multiple, Binary64.significand, if_pos low, exponent,
        Nat.div_eq_of_lt low]
    · obtain ⟨rest, rfl⟩ := Nat.exists_eq_add_of_le high
      have rank : octave * octaveSize + (octaveSize + rest) = rest + (octave + 1) * octaveSize := by ring
      have beyond : ¬ rest + (octave + 1) * octaveSize < octaveSize := by
        rw [Nat.not_lt, Nat.succ_mul]
        omega
      have less : rest < octaveSize := by omega
      rw [rank, multiple, Binary64.significand, if_neg beyond, exponent, Nat.add_mul_mod_self_right,
        Nat.mod_eq_of_lt less, Nat.add_mul_div_right _ _ positive, Nat.div_eq_of_lt less, Nat.zero_add,
        Nat.add_sub_cancel]

theorem multiple_succ (rank : Nat) :
    multiple (rank + 1) = multiple rank + Nat.pow 2 (exponent rank) := by
  have small := significand_lt rank
  have next : multiple (exponent rank * octaveSize + (significand rank + 1)) =
      (significand rank + 1) * Nat.pow 2 (exponent rank) :=
    multiple_eq small fun beyond => Nat.le_succ_of_le (le_significand beyond)
  rw [← Nat.add_assoc, ← rank_eq, Nat.succ_mul] at next
  exact next

/-- Greater ranks stand for greater numbers. -/
theorem strictMono_multiple : StrictMono multiple :=
  strictMono_nat_of_lt_succ fun rank => by
    rw [multiple_succ]
    exact Nat.lt_add_of_pos_right (Nat.two_pow_pos _)

/-- How often the spacing of the numbers has doubled at a ratio. -/
theorem doublings_eq {scaled denominator octave : Nat} (positive : 0 < denominator)
    (small : scaled < 2 * octaveSize * (denominator * Nat.pow 2 octave))
    (large : octave ≠ 0 → octaveSize * (denominator * Nat.pow 2 octave) ≤ scaled) :
    (scaled / denominator).log2 - 52 = octave := by
  have high : scaled / denominator < 2 ^ (52 + octave + 1) := by
    apply (Nat.div_lt_iff_lt_mul positive).mpr
    have power : 2 * octaveSize * (denominator * Nat.pow 2 octave) = 2 ^ (52 + octave + 1) * denominator := by
      change 2 * 2 ^ 52 * (denominator * 2 ^ octave) = _
      ring
    rwa [power] at small
  rcases Nat.eq_zero_or_pos octave with rfl | later
  · rcases Nat.eq_zero_or_pos (scaled / denominator) with none | some
    · rw [none]
      rfl
    · have below := (Nat.log2_lt some.ne').mpr high
      omega
  · have low : 2 ^ (52 + octave) ≤ scaled / denominator := by
      apply (Nat.le_div_iff_mul_le positive).mpr
      have power : octaveSize * (denominator * Nat.pow 2 octave) = 2 ^ (52 + octave) * denominator := by
        change 2 ^ 52 * (denominator * 2 ^ octave) = _
        ring
      rw [← power]
      exact large later.ne'
    have some : scaled / denominator ≠ 0 := by
      have positive : 0 < 2 ^ (52 + octave) := Nat.two_pow_pos _
      omega
    have below := (Nat.log2_lt some).mpr high
    have above := (Nat.le_log2 some).mpr low
    omega

/-- A ratio in the octave of a rank rounds to it if the significand is the nearest whole number. -/
theorem nearestRank_of_octave {numerator denominator octave significand : Nat} (positive : 0 < denominator)
    (small : numerator * one < 2 * octaveSize * (denominator * Nat.pow 2 octave))
    (large : octave ≠ 0 → octaveSize * (denominator * Nat.pow 2 octave) ≤ numerator * one)
    (nearest : roundRatio (numerator * one) (denominator * Nat.pow 2 octave) = significand) :
    nearestRank numerator denominator = octave * octaveSize + significand := by
  rw [nearestRank, doublings_eq positive small large, nearest]

section

variable {scaled denominator octave : Nat}

/-- A ratio lies below the end of its octave. -/
theorem lt_octave_end (positive : 0 < denominator) (same : (scaled / denominator).log2 - 52 = octave) :
    scaled < 2 * octaveSize * (denominator * Nat.pow 2 octave) := by
  have exceeded : scaled / denominator < 2 ^ (52 + octave + 1) :=
    Nat.lt_log2_self.trans_le (Nat.pow_le_pow_right Nat.two_pos (by omega))
  have power : 2 * octaveSize * (denominator * Nat.pow 2 octave) = 2 ^ (52 + octave + 1) * denominator := by
    change 2 * 2 ^ 52 * (denominator * 2 ^ octave) = _
    ring
  rw [power]
  exact (Nat.div_lt_iff_lt_mul positive).mp exceeded

/-- Only the first octave holds ratios down to zero. -/
theorem octave_start_le (positive : 0 < denominator) (same : (scaled / denominator).log2 - 52 = octave)
    (later : octave ≠ 0) : octaveSize * (denominator * Nat.pow 2 octave) ≤ scaled := by
  have some : scaled / denominator ≠ 0 := fun none => by
    rw [none, Nat.log2_zero] at same
    omega
  have reached : 2 ^ (52 + octave) ≤ scaled / denominator :=
    (Nat.pow_le_pow_right Nat.two_pos (by omega)).trans (Nat.log2_self_le some)
  have power : octaveSize * (denominator * Nat.pow 2 octave) = 2 ^ (52 + octave) * denominator := by
    change 2 ^ 52 * (denominator * 2 ^ octave) = _
    ring
  rw [power]
  exact (Nat.le_div_iff_mul_le positive).mp reached

end

/-- A ratio is no further away from the number that it rounds to than half the spacing in its
octave. -/
theorem nearestRank_near (numerator : Nat) {denominator : Nat} (positive : 0 < denominator) :
    ∃ octave,
      2 * (multiple (nearestRank numerator denominator) * denominator) ≤
        2 * (numerator * one) + denominator * Nat.pow 2 octave ∧
      2 * (numerator * one) ≤
        2 * (multiple (nearestRank numerator denominator) * denominator) + denominator * Nat.pow 2 octave ∧
      (octave ≠ 0 → octaveSize * (denominator * Nat.pow 2 octave) ≤ numerator * one) := by
  obtain ⟨octave, same⟩ : ∃ octave, (numerator * one / denominator).log2 - 52 = octave := ⟨_, rfl⟩
  have rank : nearestRank numerator denominator =
      octave * octaveSize + roundRatio (numerator * one) (denominator * Nat.pow 2 octave) := by
    simp only [nearestRank, same]
  generalize nearestRank numerator denominator = nearest at rank ⊢
  generalize numerator * one = scaled at same rank ⊢
  have spacing : 0 < denominator * Nat.pow 2 octave := Nat.mul_pos positive (Nat.two_pow_pos octave)
  have small := lt_octave_end positive same
  have large := octave_start_le positive same
  obtain ⟨above, below⟩ := roundRatio_near scaled spacing
  generalize roundRatio scaled (denominator * Nat.pow 2 octave) = significand at above below rank
  have inside : significand ≤ 2 * octaveSize := by
    refine Nat.le_of_not_lt fun more => ?_
    have bound := Nat.mul_le_mul_right (denominator * Nat.pow 2 octave) (Nat.succ_le_of_lt more)
    rw [Nat.succ_eq_add_one, Nat.succ_mul] at bound
    omega
  have full : octave ≠ 0 → octaveSize ≤ significand := by
    intro later
    have large := large later
    refine Nat.le_of_not_lt fun less => ?_
    have bound := Nat.mul_le_mul_right (denominator * Nat.pow 2 octave) (Nat.succ_le_of_lt less)
    rw [Nat.succ_eq_add_one, Nat.succ_mul] at bound
    omega
  have size : multiple nearest * denominator = significand * (denominator * Nat.pow 2 octave) := by
    rw [rank, multiple_eq inside full]
    ring
  refine ⟨octave, ?_, ?_, large⟩
  · rwa [size]
  · rwa [size]

/-- Whether a ratio lies in an interval. The ends belong to it only if it is closed. -/
def Interval.Contains (interval : Interval) (numerator denominator : Nat) : Prop :=
  interval.low * denominator ≤ 4 * (numerator * one) ∧ 4 * (numerator * one) ≤ interval.high * denominator ∧
    (interval.closed = false → interval.low * denominator ≠ 4 * (numerator * one) ∧
      4 * (numerator * one) ≠ interval.high * denominator)

/-- How far the interval of a number reaches down, in quarters of the spacing above it. -/
def reach (rank : Nat) : Nat := if rank % octaveSize = 0 ∧ 2 * octaveSize ≤ rank then 1 else 2

theorem reach_cases (rank : Nat) : reach rank = 1 ∧ significand rank = octaveSize ∨ reach rank = 2 := by
  unfold reach
  split
  next halved =>
    have large : ¬ rank < octaveSize := by omega
    exact Or.inl ⟨rfl, by rw [significand, if_neg large, halved.1, Nat.add_zero]⟩
  next => exact Or.inr rfl

theorem interval_eq (rank : Nat) :
    interval rank = ⟨4 * multiple rank - reach rank * Nat.pow 2 (exponent rank), 4 * multiple rank,
      4 * multiple rank + 2 * Nat.pow 2 (exponent rank), rank % 2 == 0⟩ := by
  simp only [interval, reach, Bool.and_eq_true, beq_iff_eq, decide_eq_true_eq]
  split <;> simp

/-- An interval in terms of the significand. -/
theorem Interval.Contains.bounds {numerator denominator rank : Nat}
    (inside : (interval rank).Contains numerator denominator) :
    4 * (significand rank * (denominator * Nat.pow 2 (exponent rank))) ≤
        4 * (numerator * one) + reach rank * (denominator * Nat.pow 2 (exponent rank)) ∧
      4 * (numerator * one) ≤ 4 * (significand rank * (denominator * Nat.pow 2 (exponent rank))) +
        2 * (denominator * Nat.pow 2 (exponent rank)) ∧
      (rank % 2 = 1 →
        4 * (significand rank * (denominator * Nat.pow 2 (exponent rank))) ≠
          4 * (numerator * one) + reach rank * (denominator * Nat.pow 2 (exponent rank)) ∧
        4 * (numerator * one) ≠ 4 * (significand rank * (denominator * Nat.pow 2 (exponent rank))) +
          2 * (denominator * Nat.pow 2 (exponent rank))) := by
  obtain ⟨low, high, strict⟩ := inside
  simp only [interval_eq, multiple, Nat.sub_mul, Nat.add_mul, Nat.mul_assoc,
    Nat.mul_comm (Nat.pow 2 _) denominator] at low high strict ⊢
  refine ⟨by omega, high, fun odd => ?_⟩
  obtain ⟨less, more⟩ := strict (by simp [odd])
  exact ⟨by omega, more⟩

section

variable {numerator denominator rank : Nat}

/-- A ratio of the interval that lies in the octave of the rank rounds to its significand. -/
theorem nearestRank_of_le (positive : 0 < denominator) (inside : (interval rank).Contains numerator denominator)
    (inOctave : exponent rank ≠ 0 →
      octaveSize * (denominator * Nat.pow 2 (exponent rank)) ≤ numerator * one) :
    nearestRank numerator denominator = rank := by
  obtain ⟨low, high, strict⟩ := inside.bounds
  have split := rank_eq rank
  have small := significand_lt rank
  have spacing : 0 < denominator * Nat.pow 2 (exponent rank) := Nat.mul_pos positive (Nat.two_pow_pos _)
  have within : (significand rank + 1) * (denominator * Nat.pow 2 (exponent rank)) ≤
      2 * octaveSize * (denominator * Nat.pow 2 (exponent rank)) := Nat.mul_le_mul_right _ small
  rw [Nat.succ_mul] at within
  have even : octaveSize % 2 = 0 := by decide
  have parity : (exponent rank * octaveSize) % 2 = 0 := by
    rw [Nat.mul_mod, even, Nat.mul_zero, Nat.zero_mod]
  have nearest : roundRatio (numerator * one) (denominator * Nat.pow 2 (exponent rank)) =
      significand rank := by
    rcases reach_cases rank with ⟨reach, _⟩ | reach
    · rw [reach, Nat.one_mul] at low strict
      exact roundRatio_eq spacing (by omega) (by omega) fun odd => by
        obtain ⟨_, more⟩ := strict (by omega)
        omega
    · rw [reach] at low strict
      exact roundRatio_eq spacing (by omega) (by omega) fun odd => by
        obtain ⟨less, more⟩ := strict (by omega)
        omega
  exact (nearestRank_of_octave positive (by omega) inOctave nearest).trans split.symm

/-- A ratio of the interval that lies below the octave of the rank is near to a power of two, below which the
spacing is half as large. -/
theorem nearestRank_of_lt (positive : 0 < denominator) (inside : (interval rank).Contains numerator denominator)
    (beyond : exponent rank ≠ 0)
    (less : ¬ octaveSize * (denominator * Nat.pow 2 (exponent rank)) ≤ numerator * one) :
    nearestRank numerator denominator = rank := by
  obtain ⟨low, _⟩ := inside.bounds
  have split := rank_eq rank
  have size := octaveSize_pos
  have spacing : 0 < denominator * Nat.pow 2 (exponent rank) := Nat.mul_pos positive (Nat.two_pow_pos _)
  have first : significand rank = octaveSize := by
    rcases reach_cases rank with ⟨_, first⟩ | reach
    · exact first
    · refine Nat.le_antisymm (Nat.not_lt.mp fun more => ?_) (le_significand beyond)
      have bound := Nat.mul_le_mul_right (denominator * Nat.pow 2 (exponent rank)) (Nat.succ_le_of_lt more)
      rw [Nat.succ_mul] at bound
      rw [reach] at low
      omega
  rw [first] at low split
  have halved : reach rank = 1 := by
    have bound := Nat.mul_le_mul_right octaveSize (Nat.one_le_iff_ne_zero.mpr beyond)
    refine if_pos ⟨?_, by omega⟩
    rw [split, ← Nat.succ_mul, Nat.mul_mod_left]
  rw [halved, Nat.one_mul] at low
  obtain ⟨octave, same⟩ := Nat.exists_eq_succ_of_ne_zero beyond
  rw [same] at low less split spacing
  have power : denominator * Nat.pow 2 (octave + 1) = 2 * (denominator * Nat.pow 2 octave) := by
    rw [show Nat.pow 2 (octave + 1) = 2 * Nat.pow 2 octave from Nat.pow_succ']
    ring
  rw [Nat.succ_eq_add_one, power] at low less spacing
  have half : octaveSize * (2 * (denominator * Nat.pow 2 octave)) =
      2 * (octaveSize * (denominator * Nat.pow 2 octave)) := by ring
  have twice : 2 * octaveSize * (denominator * Nat.pow 2 octave) =
      2 * (octaveSize * (denominator * Nat.pow 2 octave)) := by ring
  have bound := Nat.mul_le_mul_right (denominator * Nat.pow 2 octave) size
  rw [half] at low less
  have nearest : roundRatio (numerator * one) (denominator * Nat.pow 2 octave) = 2 * octaveSize :=
    roundRatio_eq (by omega) (by omega) (by omega) fun odd => by omega
  refine (nearestRank_of_octave positive (by omega) (fun _ => by omega) nearest).trans ?_
  rw [split, Nat.succ_eq_add_one]
  ring

/-- The ratios in the interval of a rank round to it. -/
theorem nearestRank_eq (positive : 0 < denominator) (inside : (interval rank).Contains numerator denominator) :
    nearestRank numerator denominator = rank := by
  by_cases inOctave : exponent rank ≠ 0 →
      octaveSize * (denominator * Nat.pow 2 (exponent rank)) ≤ numerator * one
  · exact nearestRank_of_le positive inside inOctave
  · obtain ⟨beyond, less⟩ := Classical.not_imp.mp inOctave
    exact nearestRank_of_lt positive inside beyond less

end

end DelayGenerator.Binary64
