/-
This file reads back what documents show for numbers: every finite number is read as a finite number, and as the same
one if it has few digits.
-/

import DelayGenerator.Proofs.Json.Number

namespace DelayGenerator.Json

open Binary64 (decimalValue)

/-- The text of a finite number in a document, behind its sign. -/
def magnitudeText (rank : Nat) : List Char :=
  if rank == 0 then "0.0".toList
  else
    let digits := Binary64.shortest .toEven rank
    let whole := digits.exponent + digits.count
    if -4 ≤ whole ∧ whole ≤ 16 then Binary64.withPoint digits else digits.scientific Binary64.signedText

theorem numberText_finite (negative : Bool) (rank : Fin finiteCount) :
    numberText (.finite negative rank) = Binary64.sign negative ++ magnitudeText rank := by
  rw [numberText, if_pos (show (Binary64.finite negative rank).isFinite = true from rfl), Binary64.document,
    Binary64.write, String.toList_ofList]
  rfl

/-- The decimal number that a document shows for a finite number. A whole number has a zero behind the point. -/
def shownDecimal (negative : Bool) (rank : Nat) : Decimal :=
  if rank == 0 then ⟨negative, 0, -1⟩
  else
    let digits := Binary64.shortest .toEven rank
    if 0 ≤ digits.exponent ∧ digits.exponent + digits.count ≤ 16 then
      ⟨negative, digits.coefficient * 10 ^ (digits.exponent.toNat + 1), -1⟩
    else ⟨negative, digits.coefficient, digits.exponent⟩

theorem negative_shownDecimal (negative : Bool) (rank : Nat) : (shownDecimal negative rank).negative = negative := by
  unfold shownDecimal
  dsimp only
  split
  · rfl
  · split <;> rfl

/-- The text of a finite number denotes the decimal number that is shown. -/
theorem exists_isWritten_magnitudeText (negative : Bool) (rank : Fin finiteCount) :
    ∃ read, IsWritten (magnitudeText rank) (shownDecimal negative rank) read := by
  by_cases zero : rank.val = 0
  · have isWhole : IsWhole ['0'] := ⟨List.cons_ne_nil _ _, isDigit_of_mem_zero, Or.inl rfl⟩
    rw [magnitudeText, shownDecimal, if_pos (beq_iff_eq.mpr zero), if_pos (beq_iff_eq.mpr zero)]
    exact ⟨⟨negative, ['0'], some ['0'], none⟩, rfl,
      List.forall_mem_append.mpr ⟨isDigit_of_mem_zero, isDigit_of_mem_zero⟩, rfl,
      fun care rest ends => numeral_point isWhole (List.cons_ne_nil _ _) isDigit_of_mem_zero ends⟩
  · have positive := Binary64.coefficient_shortest_ne_zero .toEven (Nat.pos_of_ne_zero zero)
    have length := Text.length_allDigits_pos (Binary64.shortest .toEven rank).coefficient
    have notZero : ¬ (rank.val == 0) = true := by simpa using zero
    rw [magnitudeText, shownDecimal, if_neg notZero, if_neg notZero]
    dsimp only
    rw [Binary64.Digits.count]
    split
    next middle =>
      simp only [middle.2, and_true]
      exact exists_isWritten_withPoint negative positive
    next outside =>
      rw [if_neg (by omega)]
      exact exists_isWritten_scientific negative positive

/-- A machine word holds the digits that are shown. -/
theorem coefficient_shownDecimal_le (negative : Bool) (rank : Nat) :
    (shownDecimal negative rank).coefficient ≤ Text.wordLimit := by
  unfold shownDecimal
  dsimp only
  split
  next => exact Nat.zero_le _
  next some =>
    have positive : 0 < rank := Nat.pos_of_ne_zero (by simpa using some)
    split
    next whole =>
      obtain ⟨natural, few⟩ := whole
      rw [Binary64.Digits.count] at few
      calc (Binary64.shortest .toEven rank).coefficient * 10 ^ ((Binary64.shortest .toEven rank).exponent.toNat + 1)
          ≤ 10 ^ (Text.allDigits (Binary64.shortest .toEven rank).coefficient).length *
              10 ^ ((Binary64.shortest .toEven rank).exponent.toNat + 1) :=
            Nat.mul_le_mul_right _ (Text.lt_pow_length_allDigits _).le
        _ = 10 ^ ((Text.allDigits (Binary64.shortest .toEven rank).coefficient).length +
              ((Binary64.shortest .toEven rank).exponent.toNat + 1)) := (Nat.pow_add ..).symm
        _ ≤ 10 ^ 17 := Nat.pow_le_pow_right (by decide) (by omega)
        _ ≤ Text.wordLimit := by decide
    next =>
      have few := Binary64.coefficient_shortest_le .toEven positive
      have held : 2 * 10 ^ 18 ≤ Text.wordLimit := by decide
      dsimp only
      exact few.trans held

/-- What is shown for a finite number stays in the range of the format when it is read. -/
theorem exists_scaled_shownDecimal (negative : Bool) (rank : Fin finiteCount) :
    ∃ nearest : Fin finiteCount,
      Binary64.scaled (shownDecimal negative rank).coefficient (shownDecimal negative rank).exponent =
        .finite false nearest := by
  have fits := coefficient_shownDecimal_le negative rank
  by_cases fraction : (shownDecimal negative rank).exponent < 0
  · exact Binary64.exists_scaled_of_neg fits fraction
  · revert fraction
    unfold shownDecimal
    dsimp only
    split
    next => exact fun whole => absurd (show (-1 : Int) < 0 by decide) whole
    next some =>
      have positive : 0 < rank.val := Nat.pos_of_ne_zero (by simpa using some)
      split
      next => exact fun whole => absurd (show (-1 : Int) < 0 by decide) whole
      next =>
        dsimp only
        exact fun whole => Binary64.exists_scaled_shortest positive (not_lt.mp whole)

/-- The number with a sign or none in front of it. -/
def signed (negative : Bool) (value : Binary64) : Binary64 := if negative then value.negate else value

/-- The number that the text of a number in a document is read as. -/
def reread : Binary64 → Binary64
  | .nan => .nan
  | .infinite negative => .infinite negative
  | .finite negative rank =>
    signed negative
      (Binary64.scaled (shownDecimal negative rank).coefficient (shownDecimal negative rank).exponent)

/-- A finite number is read as a finite number with the same sign. -/
theorem exists_reread_finite (negative : Bool) (rank : Fin finiteCount) :
    ∃ nearest : Fin finiteCount, reread (.finite negative rank) = .finite negative nearest ∧
      Binary64.scaled (shownDecimal negative rank).coefficient (shownDecimal negative rank).exponent =
        .finite false nearest := by
  obtain ⟨nearest, finite⟩ := exists_scaled_shownDecimal negative rank
  refine ⟨nearest, ?_, finite⟩
  rw [reread, finite]
  cases negative <;> rfl

/-- A written number is read as a number, whatever stands behind it. -/
theorem readNumber_magnitudeText (negative : Bool) (rank : Fin finiteCount) {rest : List Char}
    (ends : EndsNumber rest) :
    readNumber negative (magnitudeText rank ++ rest) = .ok (.number (reread (.finite negative rank)), rest) := by
  obtain ⟨read, same, areDigits, notWhole, parsed⟩ := exists_isWritten_magnitudeText negative rank
  obtain ⟨nearest, again, finite⟩ := exists_reread_finite negative rank
  have sign : read.negative = negative := (congrArg Decimal.negative same).trans (negative_shownDecimal _ _)
  rw [← same] at finite
  have value := Numeral.toNumber_of_finite areDigits (same ▸ coefficient_shownDecimal_le negative rank) finite
  rw [← Numeral.toJson_of_notWhole notWhole] at value
  rw [negative_shownDecimal] at parsed
  rw [readNumber, parsed .close rest ends]
  simp only [bind, Except.bind, value, again, sign]

/-- A time is read as a time. -/
theorem isTime_reread {value : Binary64} (time : value.isTime) : (reread value).isTime := by
  rcases Binary64.eq_finite_of_isTime time with ⟨rank, rfl⟩ | rfl
  · obtain ⟨nearest, same, _⟩ := exists_reread_finite false rank
    rw [same]
    rfl
  · decide +kernel

/-- What is shown for a positive number stands for its fewest digits. -/
theorem decimalValue_shownDecimal (negative : Bool) {rank : Nat} (positive : 0 < rank) :
    decimalValue (shownDecimal negative rank).coefficient (shownDecimal negative rank).exponent =
      (Binary64.shortest .toEven rank).value := by
  rw [shownDecimal, if_neg (by simpa using positive.ne')]
  dsimp only
  split
  next whole =>
    obtain ⟨power, same⟩ := Int.eq_ofNat_of_zero_le whole.1
    rw [Binary64.Digits.value, decimalValue, decimalValue, same, Int.toNat_natCast, zpow_natCast]
    push_cast
    rw [pow_succ, zpow_neg_one]
    ring
  next => rw [Binary64.Digits.value]

/-- What is shown for the number has few digits and a small power of ten. -/
def IsShort : Binary64 → Prop
  | .finite negative rank =>
    (shownDecimal negative rank).coefficient < 2 * octaveSize ∧
      (shownDecimal negative rank).exponent.natAbs ≤ 22
  | _ => False

/-- A number with few digits is read as itself. -/
theorem reread_of_isShort {value : Binary64} (short : IsShort value) : reread value = value := by
  match value, short with
  | .finite negative rank, ⟨few, near⟩ =>
    have read : Binary64.scaled (shownDecimal negative rank).coefficient (shownDecimal negative rank).exponent =
        .finite false rank := by
      rw [Binary64.scaled_short few near]
      by_cases zero : rank.val = 0
      · have same : rank = ⟨0, by decide⟩ := Fin.ext zero
        subst same
        cases negative <;> decide +kernel
      · have positive := Nat.pos_of_ne_zero zero
        exact Binary64.toBinary64_of_shortest false .toEven positive (decimalValue_shownDecimal negative positive)
    rw [reread, read]
    cases negative <;> rfl

end DelayGenerator.Json
