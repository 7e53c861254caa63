/-
This file follows whole numbers that are multiplied with powers of ten in the arithmetic of the format. The result is
finite unless the product lies at the end of the range, and short numbers give the number nearest to the product.
-/

import DelayGenerator.Binary64.Scaling
import DelayGenerator.Proofs.Binary64.Scientific

namespace DelayGenerator.Binary64

section

variable {numerator denominator rank : Nat}

/-- A number of the format rounds to itself. -/
theorem nearestRank_multiple (positive : 0 < denominator) (same : numerator * one = multiple rank * denominator) :
    nearestRank numerator denominator = rank := by
  have spacing : 0 < Nat.pow 2 (exponent rank) := Nat.two_pow_pos _
  refine nearestRank_eq positive ?_
  rw [Interval.Contains, interval_eq, same]
  dsimp only
  rw [← Nat.mul_assoc]
  refine ⟨Nat.mul_le_mul_right _ (Nat.sub_le _ _), Nat.mul_le_mul_right _ (Nat.le_add_right _ _), fun odd => ?_⟩
  have some : 0 < multiple rank := by
    refine multiple_pos (Nat.pos_of_ne_zero ?_)
    rintro rfl
    exact absurd odd (by decide)
  have reached : 0 < reach rank * Nat.pow 2 (exponent rank) := by
    rcases reach_cases rank with ⟨reach, _⟩ | reach <;> rw [reach] <;> omega
  exact ⟨(Nat.mul_lt_mul_of_pos_right (by omega) positive).ne, (Nat.mul_lt_mul_of_pos_right (by omega) positive).ne⟩

/-- Rounding does not pass a number of the format. -/
theorem nearestRank_le (positive : 0 < denominator) (below : numerator * one ≤ multiple rank * denominator) :
    nearestRank numerator denominator ≤ rank := by
  obtain ⟨octave, near, _, large⟩ := nearestRank_near numerator positive
  refine Nat.le_of_not_lt fun passed => ?_
  have next : (multiple rank + Nat.pow 2 (exponent rank)) * denominator ≤
      multiple (nearestRank numerator denominator) * denominator := by
    rw [← multiple_succ]
    exact Nat.mul_le_mul_right _ (strictMono_multiple.monotone passed)
  rw [Nat.add_mul] at next
  -- The spacing at the ratio would be more than twice that of the number, which lies above.
  have wider : 2 * (Nat.pow 2 (exponent rank) * denominator) ≤ denominator * Nat.pow 2 octave := by omega
  have later : exponent rank + 1 ≤ octave := by
    have wider : Nat.pow 2 (exponent rank + 1) ≤ Nat.pow 2 octave := by
      refine Nat.le_of_mul_le_mul_left ?_ positive
      rw [show Nat.pow 2 (exponent rank + 1) = 2 * Nat.pow 2 (exponent rank) from Nat.pow_succ']
      calc denominator * (2 * Nat.pow 2 (exponent rank))
          = 2 * (Nat.pow 2 (exponent rank) * denominator) := by ring
        _ ≤ denominator * Nat.pow 2 octave := wider
    exact (Nat.pow_le_pow_iff_right (by decide)).mp wider
  have start := (large (Nat.ne_of_gt (Nat.lt_of_lt_of_le (Nat.succ_pos _) later))).trans below
  have short : multiple rank * denominator < 2 * octaveSize * (Nat.pow 2 (exponent rank) * denominator) := by
    rw [multiple, Nat.mul_assoc]
    exact Nat.mul_lt_mul_of_pos_right (significand_lt rank) (Nat.mul_pos (Nat.two_pow_pos _) positive)
  have size := Nat.mul_le_mul_left octaveSize wider
  rw [← Nat.mul_assoc, Nat.mul_comm octaveSize 2] at size
  omega

/-- A common factor does not matter. -/
theorem nearestRank_mul_right (numerator denominator : Nat) {factor : Nat} (positive : 0 < factor) :
    nearestRank (numerator * factor) (denominator * factor) = nearestRank numerator denominator := by
  have rounded (scaled unit : Nat) : roundRatio (scaled * factor) (unit * factor) = roundRatio scaled unit := by
    simp only [roundRatio, Nat.mul_div_mul_right _ _ positive, Nat.mul_mod_mul_right, ← Nat.mul_assoc,
      Nat.mul_lt_mul_right positive]
  simp only [nearestRank]
  rw [Nat.mul_right_comm numerator, Nat.mul_div_mul_right _ _ positive, Nat.mul_right_comm denominator, rounded]

end

theorem ofRatio_of_lt (negative : Bool) {numerator denominator : Nat}
    (inRange : nearestRank numerator denominator < finiteCount) :
    ofRatio negative numerator denominator = finite negative ⟨nearestRank numerator denominator, inRange⟩ :=
  dif_pos inRange

/-- A ratio that does not exceed the greatest finite number gives a finite number. -/
theorem exists_ofRatio (negative : Bool) {numerator denominator : Nat} {rank : Fin finiteCount}
    (positive : 0 < denominator) (below : numerator * one ≤ multiple rank * denominator) :
    ∃ nearest : Fin finiteCount, ofRatio negative numerator denominator = finite negative nearest ∧
      nearestRank numerator denominator = nearest := by
  have inRange := (nearestRank_le positive below).trans_lt rank.isLt
  exact ⟨⟨_, inRange⟩, ofRatio_of_lt negative inRange, rfl⟩

/-- The range of the format ends between two powers of ten. -/
theorem greatestPower_bounds :
    10 ^ greatestPower * one ≤ multiple (finiteCount - 1) ∧
      multiple finiteCount < 10 ^ (greatestPower + 1) * one := by
  decide +kernel

/-- Whole numbers up to the greatest power of ten are in the range of the format. -/
theorem exists_ofRatio_one {value : Nat} (small : value ≤ 10 ^ greatestPower) :
    ∃ rank : Fin finiteCount, ofRatio false value 1 = finite false rank ∧ nearestRank value 1 = rank := by
  let greatest : Fin finiteCount := ⟨finiteCount - 1, by decide⟩
  have inRange : value * one ≤ multiple greatest * 1 := by
    rw [Nat.mul_one]
    exact (Nat.mul_le_mul_right one small).trans greatestPower_bounds.1
  exact exists_ofRatio false Nat.one_pos inRange

theorem ofInt_natCast (value : Nat) : ofInt value = ofRatio false value 1 := by
  have natural : decide ((value : Int) < 0) = false := by simp
  rw [ofInt, natural, Int.natAbs_natCast]

/-- Fewer than `2 ^ 53` units of a power of two are a number of the format. -/
theorem exists_multiple_eq {value : Nat} (short : value < 2 * octaveSize) (shift : Nat) :
    ∃ rank, multiple rank = value * Nat.pow 2 shift := by
  obtain ⟨octave, same⟩ : ∃ octave, (value * Nat.pow 2 shift / 1).log2 - 52 = octave := ⟨_, rfl⟩
  have small := lt_octave_end Nat.one_pos same
  have large := octave_start_le Nat.one_pos same
  rw [Nat.one_mul] at small large
  have inside : octave ≤ shift := by
    refine Nat.le_of_not_lt fun beyond => ?_
    have start := large (Nat.ne_of_gt (Nat.lt_of_le_of_lt (Nat.zero_le shift) beyond))
    have wider : Nat.pow 2 (shift + 1) ≤ Nat.pow 2 octave := Nat.pow_le_pow_right Nat.two_pos beyond
    have doubled : Nat.pow 2 (shift + 1) = 2 * Nat.pow 2 shift := Nat.pow_succ'
    have less := Nat.mul_lt_mul_of_pos_right short (Nat.two_pow_pos shift)
    have bound := Nat.mul_le_mul_left octaveSize wider
    rw [doubled, ← Nat.mul_assoc, Nat.mul_comm octaveSize 2] at bound
    exact Nat.lt_irrefl _ ((bound.trans start).trans_lt less)
  obtain ⟨rest, rfl⟩ := Nat.exists_eq_add_of_le inside
  have parts : value * Nat.pow 2 (octave + rest) = value * Nat.pow 2 rest * Nat.pow 2 octave := by
    rw [show Nat.pow 2 (octave + rest) = Nat.pow 2 octave * Nat.pow 2 rest from Nat.pow_add 2 octave rest]
    ring
  rw [parts] at small large
  have positive : 0 < Nat.pow 2 octave := Nat.two_pow_pos octave
  refine ⟨octave * octaveSize + value * Nat.pow 2 rest, ?_⟩
  rw [parts]
  exact multiple_eq (Nat.lt_of_mul_lt_mul_right small).le fun later => Nat.le_of_mul_le_mul_right (large later) positive

theorem exists_one_eq : ∃ shift, 52 ≤ shift ∧ one = Nat.pow 2 shift := by
  have more : 52 ≤ 1074 := by decide
  unfold one
  generalize 1074 = shift at more ⊢
  exact ⟨shift, more, rfl⟩

theorem octaveSize_le_one : octaveSize ≤ one := by
  obtain ⟨shift, more, unit⟩ := exists_one_eq
  rw [unit]
  exact Nat.pow_le_pow_right Nat.two_pos more

/-- Whole numbers below `2 ^ 53` are numbers of the format. -/
theorem multiple_nearestRank_short {value : Nat} (short : value < 2 * octaveSize) :
    multiple (nearestRank value 1) = value * one := by
  obtain ⟨shift, _, unit⟩ := exists_one_eq
  obtain ⟨rank, same⟩ := exists_multiple_eq short shift
  rw [← unit] at same
  rw [nearestRank_multiple Nat.one_pos (same.symm.trans (Nat.mul_one _).symm), same]

/-- The number for a whole number is not farther from it than one part in `2 ^ 53`. -/
theorem nearestRank_one_error {value : Nat} (some : 0 < value) :
    9007199254740992 * |(multiple (nearestRank value 1) : ℚ) - value * one| ≤ value * one := by
  have fine : (4503599627370496 : ℚ) ≤ one := by exact_mod_cast octaveSize_le_one
  have size : (1 : ℚ) ≤ value := by exact_mod_cast some
  have large : (one : ℚ) ≤ value * one := le_mul_of_one_le_left (by linarith) size
  have ratio : (value : ℚ) / (1 : Nat) * one = value * one := by rw [Nat.cast_one, div_one]
  rcases nearestRank_error Nat.one_pos ratio with least | relative <;> linarith

/-- The powers of ten that the format holds are not less than one. -/
theorem exists_powerOfTen {power : Nat} (inRange : power ≤ greatestPower) :
    ∃ rank : Fin finiteCount, powerOfTen power = finite false rank ∧ nearestRank (10 ^ power) 1 = rank ∧
      one ≤ multiple rank := by
  obtain ⟨rank, same, nearest⟩ := exists_ofRatio_one (Nat.pow_le_pow_right (by decide) inRange)
  refine ⟨rank, same, nearest, ?_⟩
  rcases Nat.eq_zero_or_pos power with rfl | later
  · rw [← nearest, Nat.pow_zero, multiple_nearestRank_short (by decide), Nat.one_mul]
  · have error := nearestRank_one_error (Nat.pow_pos (n := power) (show 0 < 10 by decide))
    have ten : 10 ≤ 10 ^ power := Nat.le_self_pow later.ne' 10
    have tenCast : (10 : ℚ) * one ≤ (10 ^ power : Nat) * one :=
      mul_le_mul_of_nonneg_right (by exact_mod_cast ten) (Nat.cast_nonneg _)
    have low := neg_abs_le ((multiple (nearestRank (10 ^ power) 1) : ℚ) - (10 ^ power : Nat) * one)
    have positive : (0 : ℚ) < one := by exact_mod_cast one_pos
    rw [nearest] at error low
    have reached : (one : ℚ) ≤ multiple rank := by linarith
    exact_mod_cast reached

theorem ne_zero_of_one_le {rank : Nat} (large : one ≤ multiple rank) : rank ≠ 0 := by
  rintro rfl
  exact Nat.not_lt.mpr large one_pos

/-- A number that is divided by a number not less than one stays finite. -/
theorem exists_divide (rank : Fin finiteCount) {divisor : Fin finiteCount} (large : one ≤ multiple divisor) :
    ∃ quotient : Fin finiteCount, finite false rank / finite false divisor = finite false quotient := by
  have below : multiple rank * one ≤ multiple rank * multiple divisor := Nat.mul_le_mul_left _ large
  obtain ⟨quotient, same, _⟩ := exists_ofRatio false (one_pos.trans_le large) below
  exact ⟨quotient, (divide_finite false rank (ne_zero_of_one_le large)).trans same⟩

theorem exists_shrink (rounds : Nat) (rank : Fin finiteCount) :
    ∃ less : Fin finiteCount, shrink rounds (finite false rank) = finite false less := by
  induction rounds generalizing rank with
  | zero => exact ⟨rank, rfl⟩
  | succ rounds inductionHypothesis =>
      rw [shrink]
      split
      · exact ⟨rank, rfl⟩
      · obtain ⟨divisor, same, _, large⟩ := exists_powerOfTen (Nat.le_refl greatestPower)
        obtain ⟨quotient, divided⟩ := exists_divide rank large
        rw [same, divided]
        exact inductionHypothesis quotient

theorem exists_ofInt_word {significand : Nat} (fits : significand ≤ Text.wordLimit) :
    ∃ rank : Fin finiteCount, ofInt significand = finite false rank ∧ nearestRank significand 1 = rank := by
  rw [ofInt_natCast]
  have less : Text.wordLimit ≤ 10 ^ 20 := by decide
  exact exists_ofRatio_one ((fits.trans less).trans (Nat.pow_le_pow_right (by decide) (by decide)))

/-- A whole number of a machine word times a power of ten below one is finite. -/
theorem exists_scaled_of_neg {significand : Nat} (fits : significand ≤ Text.wordLimit) {exponent : Int}
    (fraction : exponent < 0) : ∃ rank : Fin finiteCount, scaled significand exponent = finite false rank := by
  obtain ⟨whole, same, _⟩ := exists_ofInt_word fits
  obtain ⟨less, shrunk⟩ := exists_shrink (((-exponent).toNat - 1) / greatestPower) whole
  have inRange : ((-exponent).toNat - 1) % greatestPower + 1 ≤ greatestPower := Nat.mod_lt _ (by decide)
  obtain ⟨divisor, power, _, large⟩ := exists_powerOfTen inRange
  obtain ⟨quotient, divided⟩ := exists_divide less large
  have notGreat : ¬ (greatestPower : Int) < exponent := by omega
  refine ⟨quotient, ?_⟩
  rw [scaled, if_neg notGreat, if_neg fraction.not_ge]
  dsimp only
  rw [same, shrunk, power, divided]

/-- A whole number of a machine word times a power of ten is a rounded product of rounded numbers. -/
theorem exists_scaled_ofRatio {significand power : Nat} (fits : significand ≤ Text.wordLimit)
    (inRange : power ≤ greatestPower) :
    ∃ whole factor : Fin finiteCount, nearestRank significand 1 = whole ∧ nearestRank (10 ^ power) 1 = factor ∧
      scaled significand power = ofRatio false (multiple whole * multiple factor) (one * one) := by
  obtain ⟨whole, same, nearest⟩ := exists_ofInt_word fits
  obtain ⟨factor, ten, nearestToo, _⟩ := exists_powerOfTen inRange
  have notGreat : ¬ (greatestPower : Int) < power := by omega
  refine ⟨whole, factor, nearest, nearestToo, ?_⟩
  rw [scaled, if_neg notGreat, if_pos (Int.natCast_nonneg power), Int.toNat_natCast]
  rw [same, ten, multiply_finite]
  rfl

section

variable {whole factor significand power scale product : ℚ}

/-- How far a product of two rounded numbers may exceed the exact one. -/
theorem product_le_of_errors (positive : 0 < scale) (wholeNonneg : 0 ≤ significand) (factorNonneg : 0 ≤ factor)
    (wholeError : 9007199254740992 * |whole - significand * scale| ≤ significand * scale)
    (factorError : 9007199254740992 * |factor - power * scale| ≤ power * scale)
    (exact : product * scale = whole * factor) :
    9007199254740992 ^ 2 * product ≤ 9007199254740993 ^ 2 * (significand * power * scale) := by
  have wholeHigh := le_abs_self (whole - significand * scale)
  have factorHigh := le_abs_self (factor - power * scale)
  have wholeBound : 9007199254740992 * whole ≤ 9007199254740993 * (significand * scale) := by linarith
  have factorBound : 9007199254740992 * factor ≤ 9007199254740993 * (power * scale) := by linarith
  have both := mul_le_mul wholeBound factorBound (by positivity) (by positivity)
  refine le_of_mul_le_mul_right ?_ positive
  calc
    9007199254740992 ^ 2 * product * scale = 9007199254740992 * whole * (9007199254740992 * factor) := by
      rw [mul_assoc, exact]
      ring
    _ ≤ 9007199254740993 * (significand * scale) * (9007199254740993 * (power * scale)) := both
    _ = 9007199254740993 ^ 2 * (significand * power * scale) * scale := by ring

end

/-- A product is finite if three roundings, seven parts in `2 ^ 54` at most, do not lead it beyond the range. -/
theorem exists_scaled_of_nonneg {significand power : Nat} (some : 0 < significand)
    (fits : significand ≤ Text.wordLimit) (inRange : power ≤ greatestPower)
    (below : 18014398509481984 * (significand * 10 ^ power * one) ≤ 18014398509481977 * multiple finiteCount) :
    ∃ rank : Fin finiteCount, scaled significand power = finite false rank := by
  obtain ⟨whole, factor, nearest, nearestToo, same⟩ := exists_scaled_ofRatio fits inRange
  have wholeError := nearestRank_one_error some
  have factorError := nearestRank_one_error (Nat.pow_pos (n := power) (show 0 < 10 by decide))
  rw [nearest] at wholeError
  rw [nearestToo] at factorError
  have positive : 0 < one * one := Nat.mul_pos one_pos one_pos
  have scale : (0 : ℚ) < one := by exact_mod_cast one_pos
  obtain ⟨product, exact⟩ : ∃ product : ℚ, product * one = multiple whole * multiple factor :=
    ⟨multiple whole * multiple factor / one, div_mul_cancel₀ _ scale.ne'⟩
  have product_le := product_le_of_errors scale (Nat.cast_nonneg significand) (Nat.cast_nonneg _) wholeError
    factorError exact
  -- The product is rounded once more.
  have ratio : ((multiple whole * multiple factor : Nat) : ℚ) / (one * one : Nat) * one = product := by
    push_cast
    rw [← exact]
    field_simp
  have error := nearestRank_error positive ratio
  have belowCast : (18014398509481984 : ℚ) * (significand * (10 ^ power : Nat) * one) ≤
      18014398509481977 * multiple finiteCount := by exact_mod_cast below
  have greatest : (9007199254740992 : ℚ) < multiple finiteCount := by
    have greatest : 2 * octaveSize < multiple finiteCount := by
      have few : 2 * octaveSize < finiteCount := by decide
      exact few.trans_le (strictMono_multiple.le_apply)
    exact_mod_cast greatest
  have high := le_abs_self ((multiple (nearestRank (multiple whole * multiple factor) (one * one)) : ℚ) - product)
  have less : (multiple (nearestRank (multiple whole * multiple factor) (one * one)) : ℚ) < multiple finiteCount := by
    rcases error with small | relative <;> linarith
  have finiteToo : nearestRank (multiple whole * multiple factor) (one * one) < finiteCount := by
    rw [← strictMono_multiple.lt_iff_lt]
    exact_mod_cast less
  exact ⟨⟨_, finiteToo⟩, same.trans (ofRatio_of_lt false finiteToo)⟩

/-- The fewest digits of one of the three greatest numbers do not lead beyond the range. -/
theorem isFinite_scaled_greatest (less : Fin 3) :
    (scaled (shortest .toEven (finiteCount - 1 - less)).coefficient
      (shortest .toEven (finiteCount - 1 - less)).exponent).isFinite = true := by
  revert less
  decide +kernel

/-- The other numbers leave room for the errors. -/
theorem interval_high_le_of_add_four_le {rank : Nat} (less : rank + 4 ≤ finiteCount) :
    18014398509481984 * (interval rank).high ≤ 4 * (18014398509481977 * multiple finiteCount) := by
  have greatest : 18014398509481984 * (multiple (finiteCount - 4) + multiple (finiteCount - 3)) ≤
      2 * (18014398509481977 * multiple finiteCount) := by decide +kernel
  have below : multiple rank ≤ multiple (finiteCount - 4) := strictMono_multiple.monotone (by omega)
  have next : multiple (rank + 1) ≤ multiple (finiteCount - 3) := strictMono_multiple.monotone (by omega)
  have size : (interval rank).high = 2 * (multiple rank + multiple (rank + 1)) := by
    rw [interval_eq, multiple_succ]
    ring
  rw [size]
  linarith

section

variable {rank : Fin finiteCount} {power : Nat}

/-- The fewest digits of a number lie below the end of its interval. -/
theorem four_shortest_le (positive : 0 < rank.val) (same : (shortest .toEven rank).exponent = power) :
    4 * ((shortest .toEven rank).coefficient * 10 ^ power * one) ≤ (interval rank).high := by
  obtain ⟨_, below, _⟩ := shortest_around .toEven positive
  rw [Digits.value, decimalValue, same, zpow_natCast] at below
  exact_mod_cast below

/-- The power of ten of the fewest digits is in the range of the format. -/
theorem power_shortest_le (positive : 0 < rank.val) (same : (shortest .toEven rank).exponent = power) :
    power ≤ greatestPower := by
  have some := Nat.pos_of_ne_zero (coefficient_shortest_ne_zero .toEven positive)
  refine Nat.le_of_not_lt fun great => ?_
  obtain ⟨next, limit, least⟩ : ∃ next, multiple finiteCount < 10 ^ next * one ∧ next ≤ power :=
    ⟨greatestPower + 1, greatestPower_bounds.2, great⟩
  have reached : 10 ^ next ≤ (shortest .toEven rank).coefficient * 10 ^ power :=
    (Nat.pow_le_pow_right (by decide) least).trans (Nat.le_mul_of_pos_left _ some)
  have bound : (shortest .toEven rank).coefficient * 10 ^ power * one ≤ multiple finiteCount :=
    Nat.le_of_mul_le_mul_left ((four_shortest_le positive same).trans (interval_high_le rank.isLt)) (by decide)
  exact Nat.lt_irrefl _ (limit.trans_le ((Nat.mul_le_mul_right one reached).trans bound))

/-- The fewest digits of a number, multiplied with a power of ten, do not lead beyond the range. -/
theorem exists_scaled_shortest (positive : 0 < rank.val) (whole : 0 ≤ (shortest .toEven rank).exponent) :
    ∃ nearest : Fin finiteCount,
      scaled (shortest .toEven rank).coefficient (shortest .toEven rank).exponent = finite false nearest := by
  have some := Nat.pos_of_ne_zero (coefficient_shortest_ne_zero .toEven positive)
  have fits : (shortest .toEven rank).coefficient ≤ Text.wordLimit :=
    (coefficient_shortest_le .toEven positive).trans (by decide)
  obtain ⟨power, same⟩ := Int.eq_ofNat_of_zero_le whole
  have below := four_shortest_le positive same
  have inRange := power_shortest_le positive same
  by_cases greatest : finiteCount < rank + 4
  · -- Three numbers are so near to the end of the range that the errors have to be computed.
    have finite := isFinite_scaled_greatest ⟨finiteCount - 1 - rank, by omega⟩
    have back : finiteCount - 1 - (finiteCount - 1 - rank.val) = rank := by omega
    obtain ⟨first, second, _, _, product⟩ := exists_scaled_ofRatio fits inRange
    dsimp only at finite
    rw [back, same, product] at finite
    rw [same, product]
    revert finite
    rw [ofRatio]
    split
    · exact fun _ => ⟨_, rfl⟩
    · exact fun infinite => absurd infinite (by decide)
  · have room := interval_high_le_of_add_four_le (Nat.le_of_not_lt greatest)
    rw [same]
    refine exists_scaled_of_nonneg some fits inRange ?_
    linarith

end

/-- Powers of ten are numbers of the format up to the twenty-second. -/
theorem multiple_nearestRank_power {power : Nat} (few : power ≤ 22) :
    multiple (nearestRank (10 ^ power) 1) = 10 ^ power * one := by
  have short : 5 ^ power < 2 * octaveSize :=
    (Nat.pow_le_pow_right (by decide) few).trans_lt (show 5 ^ 22 < 2 * octaveSize by decide)
  obtain ⟨shift, _, unit⟩ := exists_one_eq
  obtain ⟨rank, same⟩ := exists_multiple_eq short (power + shift)
  have ten : 5 ^ power * Nat.pow 2 (power + shift) = 10 ^ power * one := by
    rw [unit, show Nat.pow 2 (power + shift) = 2 ^ power * Nat.pow 2 shift from Nat.pow_add 2 power shift,
      ← Nat.mul_assoc, ← Nat.mul_pow]
  rw [ten] at same
  rw [nearestRank_multiple Nat.one_pos (same.symm.trans (Nat.mul_one _).symm), same]

theorem negate_ofRatio (numerator denominator : Nat) :
    (ofRatio false numerator denominator).negate = ofRatio true numerator denominator := by
  unfold ofRatio
  dsimp only
  split <;> rfl

/-- A decimal number with a sign is read as the number of the other sign. -/
theorem toBinary64_negative (coefficient : Nat) (exponent : Int) :
    Decimal.toBinary64 ⟨true, coefficient, exponent⟩ =
      (Decimal.toBinary64 ⟨false, coefficient, exponent⟩).negate := by
  unfold Decimal.toBinary64
  dsimp only
  split
  · rfl
  · split
    · rfl
    · split <;> rw [negate_ofRatio]

theorem ofRatio_zero (negative : Bool) {denominator : Nat} (positive : 0 < denominator) :
    ofRatio negative 0 denominator = zero negative := by
  have least : nearestRank 0 denominator = 0 := by
    refine nearestRank_multiple positive ?_
    rw [Nat.zero_mul, show multiple 0 = 0 from rfl, Nat.zero_mul]
  simp only [ofRatio, least]
  rfl

/-- A decimal number with few digits and a small exponent is read as the number nearest to its ratio. -/
theorem toBinary64_short {coefficient : Nat} (short : coefficient < 2 * octaveSize) {exponent : Int}
    (few : exponent.natAbs ≤ 22) :
    Decimal.toBinary64 ⟨false, coefficient, exponent⟩ =
      if 0 ≤ exponent then ofRatio false (coefficient * 10 ^ exponent.toNat) 1
      else ofRatio false coefficient (10 ^ (-exponent).toNat) := by
  by_cases zero : coefficient = 0
  · subst zero
    rw [Nat.zero_mul, ofRatio_zero false Nat.one_pos, ofRatio_zero false (Nat.pow_pos (by decide)), ite_self]
    rfl
  · have digits : (Text.allDigits coefficient).length ≤ 20 :=
      (Text.length_allDigits_le_iff (by decide)).mpr (Nat.lt_of_lt_of_le short (by decide))
    have low : ¬ exponent + (Text.allDigits coefficient).length < -400 := by omega
    have high : ¬ 400 < exponent + (Text.allDigits coefficient).length := by omega
    simp only [Decimal.toBinary64, beq_eq_false_iff_ne.mpr zero, low, high, decide_false, Bool.or_self,
      Bool.false_eq_true, if_false]
    rfl

/-- A decimal number with few digits and a small exponent is scaled to the number nearest to it, since both factors are
numbers of the format. -/
theorem scaled_short {significand : Nat} (short : significand < 2 * octaveSize) {exponent : Int}
    (few : exponent.natAbs ≤ 22) :
    scaled significand exponent = Decimal.toBinary64 ⟨false, significand, exponent⟩ := by
  have fits : significand ≤ Text.wordLimit := short.le.trans (by decide)
  have scale : 0 < one * one := Nat.mul_pos one_pos one_pos
  rw [toBinary64_short short few]
  split
  next whole =>
    obtain ⟨power, rfl⟩ := Int.eq_ofNat_of_zero_le whole
    obtain ⟨first, second, nearest, nearestToo, product⟩ :=
      exists_scaled_ofRatio fits (show power ≤ greatestPower by unfold greatestPower; omega)
    have parts : significand * one * (10 ^ power * one) = significand * 10 ^ power * (one * one) := by ring
    have ratio := nearestRank_mul_right (significand * 10 ^ power) 1 scale
    rw [Nat.one_mul] at ratio
    rw [product, ← nearest, ← nearestToo, multiple_nearestRank_short short,
      multiple_nearestRank_power (by omega), parts, ofRatio, ratio, Int.toNat_natCast, ← ofRatio]
  next fraction =>
    obtain ⟨power, same⟩ : ∃ power, (-exponent).toNat = power + 1 := ⟨(-exponent).toNat - 1, by omega⟩
    obtain ⟨first, whole, nearest⟩ := exists_ofInt_word fits
    obtain ⟨divisor, ten, nearestToo, large⟩ :=
      exists_powerOfTen (show power + 1 ≤ greatestPower by unfold greatestPower; omega)
    have notGreat : ¬ (greatestPower : Int) < exponent := by omega
    have noRound : power / greatestPower = 0 := Nat.div_eq_of_lt (by unfold greatestPower; omega)
    have all : power % greatestPower = power := Nat.mod_eq_of_lt (by unfold greatestPower; omega)
    rw [scaled, if_neg notGreat, if_neg fraction]
    dsimp only
    rw [same, Nat.add_sub_cancel, noRound, all, shrink, whole, ten, divide_finite false first (ne_zero_of_one_le large),
      ← nearest, ← nearestToo, multiple_nearestRank_short short, multiple_nearestRank_power (by omega), ofRatio,
      nearestRank_mul_right significand _ one_pos, ← ofRatio]

theorem exists_scaled_short {significand : Nat} (short : significand < 2 * octaveSize) {exponent : Int}
    (few : exponent.natAbs ≤ 22) : ∃ rank : Fin finiteCount, scaled significand exponent = finite false rank := by
  by_cases fraction : exponent < 0
  · exact exists_scaled_of_neg (short.le.trans (by decide)) fraction
  · have small : significand * 10 ^ exponent.toNat ≤ 10 ^ greatestPower :=
      calc significand * 10 ^ exponent.toNat
          ≤ 10 ^ 16 * 10 ^ 22 :=
            Nat.mul_le_mul (short.le.trans (by decide)) (Nat.pow_le_pow_right (by decide) (by omega))
        _ = 10 ^ (16 + 22) := (Nat.pow_add ..).symm
        _ ≤ 10 ^ greatestPower := Nat.pow_le_pow_right (by decide) (by decide)
    obtain ⟨rank, same, _⟩ := exists_ofRatio_one small
    rw [scaled_short short few, toBinary64_short short few, if_pos (not_lt.mp fraction)]
    exact ⟨rank, same⟩

end DelayGenerator.Binary64
