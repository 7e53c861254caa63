/-
This file says which times are written without a sign in front, and that the quotient of two numbers
is finite unless it is great.
-/

import DelayGenerator.Binary64.Notation
import DelayGenerator.Proofs.Binary64.Rounded

namespace DelayGenerator

/-- A time without a sign in front: a digit, a point, six digits, and behind the letter `E` a minus
sign or none and digits. -/
inductive Text.IsUnsignedTime : String → Prop
  | written {whole : Char} {fraction exponent : List Char} (isDigit : whole.isDigit)
      (six : fraction.length = 6) (inFraction : ∀ character ∈ fraction, character.isDigit) (below : Bool)
      (some : exponent ≠ []) (inExponent : ∀ character ∈ exponent, character.isDigit) :
      IsUnsignedTime
        (String.ofList (whole :: '.' :: (fraction ++ 'E' :: (Binary64.sign below ++ exponent))))

theorem Text.IsUnsignedTime.head_isDigit {text : String} (unsigned : IsUnsignedTime text) :
    ∃ first, text.toList.head? = some first ∧ first.isDigit := by
  obtain ⟨isDigit, _, _, _, _, _⟩ := unsigned
  exact ⟨_, by rw [String.toList_ofList, List.head?_cons], isDigit⟩

namespace Binary64

theorem integerText_eq (value : Int) :
    ∃ below, integerText value = sign below ++ Text.allDigits value.natAbs := by
  unfold integerText
  split
  · exact ⟨true, rfl⟩
  · exact ⟨false, rfl⟩

theorem scientific_minusZero : (zero true).scientific = "-0.000000E0" := by decide

/-- Positive numbers and zero are written without a sign in front. -/
theorem isUnsignedTime_scientific (rank : Fin finiteCount) :
    Text.IsUnsignedTime (finite false rank).scientific := by
  rw [scientific, write]
  split
  · exact @Text.IsUnsignedTime.written '0' "000000".toList ['0'] rfl rfl (List.all_eq_true.mp rfl) false
      (List.cons_ne_nil _ _) (List.all_eq_true.mp rfl)
  · obtain ⟨below, exponent⟩ := integerText_eq ((rounded 7 rank).exponent + 6)
    dsimp only
    rw [exponent, List.append_assoc]
    exact .written (Text.isDigit_digit _) (Text.lengthLastDigits _ _) (fun _ => Text.isDigit_of_mem_lastDigits) below
      (Text.allDigits_ne_nil _) fun _ => Text.isDigit_of_mem_allDigits

/-- A finite number below zero is not a time, but minus zero is. -/
theorem eq_finite_of_isTime {value : Binary64} (time : value.isTime) :
    (∃ rank, value = finite false rank) ∨ value = zero true := by
  cases value with
  | nan => contradiction
  | infinite negative => contradiction
  | finite negative rank =>
      cases negative with
      | false => exact Or.inl ⟨rank, rfl⟩
      | true =>
          have none : rank.val = 0 := by simpa [isTime, isFinite, isBelowZero] using time
          have same : rank = ⟨0, by decide⟩ := Fin.ext none
          exact Or.inr (by rw [same]; rfl)

theorem finite_ne_minusZero (rank : Fin finiteCount) : finite false rank ≠ zero true := by simp [zero]

/-- Of all times minus zero alone is written with a sign in front. -/
theorem isUnsignedTime_scientific_iff {value : Binary64} (time : value.isTime) :
    Text.IsUnsignedTime value.scientific ↔ value ≠ zero true := by
  rcases eq_finite_of_isTime time with ⟨rank, rfl⟩ | rfl
  · exact iff_of_true (isUnsignedTime_scientific rank) (finite_ne_minusZero rank)
  · refine iff_of_false (fun unsigned => ?_) fun differ => differ rfl
    obtain ⟨first, begins, isDigit⟩ := unsigned.head_isDigit
    rw [scientific_minusZero] at begins
    cases begins
    contradiction

/-- A ratio well below the greatest number is rounded to a number. -/
theorem nearestRank_lt_finiteCount {numerator denominator : Nat} (positive : 0 < denominator)
    (low : 3 * (numerator * one) + denominator < 2 * (multiple finiteCount * denominator)) :
    nearestRank numerator denominator < finiteCount := by
  obtain ⟨octave, near, _, large⟩ := nearestRank_near numerator positive
  -- Half the spacing is at most half the number, and half the least spacing for the smallest ones.
  have spacing : denominator * Nat.pow 2 octave ≤ numerator * one + denominator := by
    rcases Nat.eq_zero_or_pos octave with rfl | later
    · exact Nat.le_add_left_of_le (Nat.mul_one _).le
    · refine Nat.le_add_right_of_le (Nat.le_trans ?_ (large later.ne'))
      exact Nat.le_mul_of_pos_left _ octaveSize_pos
  refine Nat.lt_of_not_le fun beyond => ?_
  have size : multiple finiteCount * denominator ≤ multiple (nearestRank numerator denominator) * denominator :=
    Nat.mul_le_mul_right _ (strictMono_multiple.monotone beyond)
  omega

/-- A ratio of at least the half of the least number is not rounded to zero. -/
theorem nearestRank_pos {numerator denominator : Nat} (positive : 0 < denominator)
    (large : denominator < 2 * (numerator * one)) : 0 < nearestRank numerator denominator := by
  obtain ⟨octave, _, near, spacing⟩ := nearestRank_near numerator positive
  refine Nat.pos_of_ne_zero fun none => ?_
  rw [none, show multiple 0 = 0 from rfl, Nat.zero_mul, Nat.mul_zero, Nat.zero_add] at near
  rcases Nat.eq_zero_or_pos octave with rfl | later
  · have unit : denominator * Nat.pow 2 0 = denominator := Nat.mul_one _
    omega
  · have two : 2 * (denominator * Nat.pow 2 octave) ≤ octaveSize * (denominator * Nat.pow 2 octave) :=
      Nat.mul_le_mul_right _ (by decide)
    have spacing := spacing later.ne'
    omega

/-- No whole number is minus zero. -/
theorem ofInt_ne_minusZero (value : Int) : ofInt value ≠ zero true := by
  intro same
  rw [ofInt, ofRatio, zero] at same
  split at same
  next =>
    obtain ⟨negative, rank⟩ := Binary64.finite.inj same
    have below : value < 0 := of_decide_eq_true negative
    have some : 0 < value.natAbs := Int.natAbs_pos.mpr below.ne
    have large : 1 < 2 * (value.natAbs * one) := by
      have bound : 1 ≤ value.natAbs * one := Nat.mul_pos some one_pos
      omega
    have positive := nearestRank_pos Nat.one_pos large
    exact absurd (congrArg Fin.val rank) positive.ne'
  next => contradiction

theorem multiply_finite (left right : Bool) (leftRank rightRank : Fin finiteCount) :
    finite left leftRank * finite right rightRank =
      ofRatio (left != right) (multiple leftRank * multiple rightRank) (one * one) := by
  change multiply _ _ = _
  rw [multiply]

theorem divide_finite (negative : Bool) (rank : Fin finiteCount) {divisor : Fin finiteCount}
    (some : divisor.val ≠ 0) :
    finite negative rank / finite false divisor = ofRatio negative (multiple rank) (multiple divisor) := by
  change divide _ _ = _
  simp [divide, some]

end Binary64

end DelayGenerator
