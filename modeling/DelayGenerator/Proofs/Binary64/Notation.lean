/-
This file reads back the notation in which the instrument takes and gives times.
-/

import DelayGenerator.Binary64.Notation
import DelayGenerator.Proofs.Binary64.Rounded

namespace DelayGenerator

theorem Text.toLower_of_isDigit {character : Char} (digit : character.isDigit = true) :
    character.toLower = character := by
  have notUpper : ¬ (character.val ≥ 'A'.val ∧ character.val ≤ 'Z'.val) := by
    simp only [Char.isDigit, Bool.and_eq_true, decide_eq_true_eq] at digit
    rintro ⟨above, _⟩
    have bound := UInt32.le_trans above digit.2
    revert bound
    decide
  exact dif_neg notUpper

namespace Decimal

theorem exponentPart?_digits (value : Nat) :
    exponentPart? ('E' :: Text.allDigits value) = some (value : Int) := by
  obtain ⟨first, rest, same, digit⟩ := Text.exists_allDigits_cons value
  have read := Text.digits?_allDigits value
  rw [same] at read ⊢
  have notMinus : first ≠ '-' := Text.ne_of_isDigit digit (by decide)
  have notPlus : first ≠ '+' := Text.ne_of_isDigit digit (by decide)
  simp [exponentPart?, notMinus, notPlus, read]

/-- A written exponent is read back. -/
theorem exponentPart?_integerText (value : Int) :
    exponentPart? ('E' :: Binary64.integerText value) = some value := by
  rw [Binary64.integerText]
  split
  next below =>
    have read := Text.digits?_allDigits value.natAbs
    have back : -|value| = value := by rw [abs_of_neg below, Int.neg_neg]
    simp [exponentPart?, read, back]
  next =>
    have back : (value.natAbs : Int) = value := by omega
    rw [exponentPart?_digits, back]

/-- Digits around a point with an exponent behind them denote a decimal number. -/
theorem unsigned?_eq (negative : Bool) {whole fraction rest : List Char} {exponent : Int} (some : whole ≠ [])
    (wholeDigits : ∀ character ∈ whole, character.isDigit = true)
    (fractionDigits : ∀ character ∈ fraction, character.isDigit = true)
    (ends : ∀ character, rest.head? = .some character → character.isDigit = false)
    (read : exponentPart? rest = .some exponent) :
    unsigned? negative (whole ++ '.' :: (fraction ++ rest)) =
      .some ⟨negative, Nat.ofDigitChars 10 (whole ++ fraction) 0, exponent - fraction.length⟩ := by
  have allDigits : ∀ character ∈ whole ++ fraction, character.isDigit = true := by
    intro character member
    exact (List.mem_append.mp member).elim (wholeDigits character) (fractionDigits character)
  have point : spanDigits (whole ++ '.' :: (fraction ++ rest)) = (whole, '.' :: (fraction ++ rest)) :=
    spanDigits_append wholeDigits fun _ same => by
      rw [← Option.some.inj same]
      rfl
  simp [unsigned?, point, spanDigits_append fractionDigits ends, some, read, digitsValue_eq allDigits]

/-- Digits with no point denote a decimal number. -/
theorem unsigned?_whole (negative : Bool) {whole rest : List Char} {exponent : Int} (some : whole ≠ [])
    (digits : ∀ character ∈ whole, character.isDigit = true)
    (ends : ∀ character, rest.head? = .some character → character.isDigit = false ∧ character ≠ '.')
    (read : exponentPart? rest = .some exponent) :
    unsigned? negative (whole ++ rest) = .some ⟨negative, Nat.ofDigitChars 10 whole 0, exponent⟩ := by
  simp only [unsigned?, spanDigits_append digits fun character same => (ends character same).1]
  split
  · exact absurd rfl (ends '.' rfl).2
  · simp [some, read, digitsValue_eq digits]

end Decimal

namespace Binary64

theorem word?_of_isDigit (negative : Bool) {first : Char} (digit : first.isDigit = true) (rest : List Char) :
    word? negative (first :: rest) = none := by
  have notI : first ≠ 'i' := Text.ne_of_isDigit digit (by decide)
  have notN : first ≠ 'n' := Text.ne_of_isDigit digit (by decide)
  simp [word?, Text.toLower_of_isDigit digit, notI, notN]

/-- Reading a text that begins with a sign or none, and a digit. -/
theorem ofText?_sign (negative : Bool) {first : Char} (digit : first.isDigit = true) (rest : List Char) :
    ofText? (String.ofList (sign negative ++ first :: rest)) =
      (Decimal.unsigned? negative (first :: rest)).map Decimal.toBinary64 := by
  have notMinus : first ≠ '-' := Text.ne_of_isDigit digit (by decide)
  have notPlus : first ≠ '+' := Text.ne_of_isDigit digit (by decide)
  cases negative <;> simp [ofText?, sign, unsigned?, word?_of_isDigit _ digit, notMinus, notPlus]

/-- Six places behind the point and an exponent are read as a decimal number. -/
theorem unsigned?_scientific (negative : Bool) {coefficient : Nat} (small : coefficient < 10000000)
    (exponent : Int) :
    Decimal.unsigned? negative (Text.lastDigits 1 (coefficient / 1000000) ++
      '.' :: (Text.lastDigits 6 coefficient ++ 'E' :: integerText (exponent + 6))) =
        some ⟨negative, coefficient, exponent⟩ := by
  have parts :
      Nat.ofDigitChars 10 (Text.lastDigits 1 (coefficient / 1000000) ++ Text.lastDigits 6 coefficient) 0 =
      coefficient := by
    rw [Nat.ofDigitChars_append, Nat.ofDigitChars_eq_ofDigitChars_zero, Text.ofDigitChars_lastDigits,
      Text.ofDigitChars_lastDigits, Text.lengthLastDigits]
    omega
  rw [Decimal.unsigned?_eq negative (by simp [Text.lastDigits]) (fun _ => Text.isDigit_of_mem_lastDigits)
    (fun _ => Text.isDigit_of_mem_lastDigits) (fun _ same => by rw [← Option.some.inj same]; rfl)
    (Decimal.exponentPart?_integerText _), parts, Text.lengthLastDigits]
  simp

/-- The number that a written finite number is read as is written alike, and zero only for zero. -/
theorem exists_ofText?_scientific (negative : Bool) (rank : Fin finiteCount) :
    ∃ nearest : Fin finiteCount, ofText? (scientific (finite negative rank)) = some (finite negative nearest) ∧
      scientific (finite negative nearest) = scientific (finite negative rank) ∧
      (nearest.val = 0 ↔ rank.val = 0) := by
  rcases Nat.eq_zero_or_pos rank.val with zero | positive
  · refine ⟨rank, ?_, rfl, Iff.rfl⟩
    have same : rank = ⟨0, by decide⟩ := Fin.ext zero
    subst same
    cases negative <;> decide +kernel
  · obtain ⟨nearest, positiveToo, read, same⟩ := exists_toBinary64_rounded negative positive
    have describes := rounded_describes positive
    have written : scientific (finite negative rank) = String.ofList (sign negative ++
        (Text.lastDigits 1 ((rounded 7 rank).coefficient / 1000000) ++
          '.' :: (Text.lastDigits 6 (rounded 7 rank).coefficient ++
            'E' :: integerText ((rounded 7 rank).exponent + 6)))) := by
      simp [scientific, write, positive.ne']
    have parsed := unsigned?_scientific negative describes.high (rounded 7 rank).exponent
    refine ⟨nearest, ?_, ?_, by omega⟩
    · rw [written]
      rw [show Text.lastDigits 1 ((rounded 7 rank).coefficient / 1000000) =
        [Text.digit ((rounded 7 rank).coefficient / 1000000)] from rfl] at parsed ⊢
      rw [List.singleton_append, ofText?_sign negative (Text.isDigit_digit _), ← List.singleton_append,
        parsed, Option.map_some, read]
    · simp [scientific, write, positive.ne', positiveToo.ne', same]

/-- A time survives being written and read: the number that is read is a time that is written
alike. -/
theorem exists_ofText?_of_isTime {value : Binary64} (time : value.isTime) :
    ∃ read, ofText? value.scientific = some read ∧ read.isTime = true ∧ read.scientific = value.scientific := by
  cases value with
  | nan => contradiction
  | infinite negative => contradiction
  | finite negative rank =>
      obtain ⟨nearest, parsed, same, zero⟩ := exists_ofText?_scientific negative rank
      refine ⟨finite negative nearest, parsed, ?_, same⟩
      cases negative with
      | false => rfl
      | true =>
          have none : rank.val = 0 := by simpa [isTime, isFinite, isBelowZero] using time
          simp [isTime, isFinite, isBelowZero, zero.mpr none]

end Binary64

end DelayGenerator
