/-
This file reads back written numbers: digits denote the number that they have been written for.
-/

import DelayGenerator.Binary64.Decimal
import Mathlib.Data.List.TakeDrop
import Mathlib.Tactic.IntervalCases
import Mathlib.Tactic.Ring

namespace DelayGenerator

namespace Text

theorem isDigit_digit (value : Nat) : (digit value).isDigit = true := by
  have small := Nat.mod_lt value (show 0 < 10 by decide)
  unfold digit
  generalize value % 10 = rest at small
  interval_cases rest <;> rfl

theorem toNat_digit (value : Nat) : (digit value).toNat - '0'.toNat = value % 10 := by
  have small := Nat.mod_lt value (show 0 < 10 by decide)
  unfold digit
  generalize value % 10 = rest at small
  interval_cases rest <;> rfl

/-- Digits can be read. -/
theorem digitsFrom?_eq (high : Nat) {characters : List Char}
    (digits : ∀ character ∈ characters, character.isDigit = true) :
    digitsFrom? high characters = some (Nat.ofDigitChars 10 characters high) := by
  induction characters generalizing high with
  | nil => rfl
  | cons first rest inductionHypothesis =>
      have later := inductionHypothesis (10 * high + (first.toNat - '0'.toNat)) fun character member =>
        digits character (List.mem_cons_of_mem first member)
      rw [digitsFrom?, digitValue?, if_pos (digits first List.mem_cons_self)]
      exact later

theorem digits?_eq {characters : List Char} (some : characters ≠ [])
    (digits : ∀ character ∈ characters, character.isDigit = true) :
    digits? characters = .some (Nat.ofDigitChars 10 characters 0) := by
  cases characters with
  | nil => contradiction
  | cons first rest => exact digitsFrom?_eq 0 digits

theorem isDigit_of_mem_lastDigits {count value : Nat} {character : Char}
    (member : character ∈ lastDigits count value) : character.isDigit = true := by
  induction count generalizing value with
  | zero => contradiction
  | succ count inductionHypothesis =>
      rcases List.mem_append.mp member with early | last
      · exact inductionHypothesis early
      · rw [List.mem_singleton.mp last]
        exact isDigit_digit value

/-- The last digits of a number denote what is left of it. -/
theorem ofDigitChars_lastDigits (count value : Nat) :
    Nat.ofDigitChars 10 (lastDigits count value) 0 = value % 10 ^ count := by
  induction count generalizing value with
  | zero => exact (Nat.mod_one value).symm
  | succ count inductionHypothesis =>
      rw [lastDigits, Nat.ofDigitChars_append, inductionHypothesis]
      change 10 * (value / 10 % 10 ^ count) + ((digit value).toNat - '0'.toNat) = _
      rw [toNat_digit, Nat.pow_succ', Nat.mod_mul, Nat.add_comm]

theorem isDigit_of_mem_allDigits {value : Nat} {character : Char} (member : character ∈ allDigits value) :
    character.isDigit = true :=
  Nat.isDigit_of_mem_toDigits (by decide) (by decide) member

theorem ofDigitChars_allDigits (value : Nat) : Nat.ofDigitChars 10 (allDigits value) 0 = value :=
  Nat.ofDigitChars_toDigits (by decide) (by decide)

theorem allDigits_ne_nil (value : Nat) : allDigits value ≠ [] := Nat.toDigits_ne_nil

theorem length_allDigits_pos (value : Nat) : 0 < (allDigits value).length :=
  List.length_pos_iff.mpr (allDigits_ne_nil value)

/-- No number but zero begins with a zero. -/
theorem head?_allDigits_ne_zero {value : Nat} (positive : value ≠ 0) : (allDigits value).head? ≠ some '0' := by
  induction value using Nat.strongRecOn with
  | ind value inductionHypothesis =>
      rw [allDigits, Nat.toDigits_eq_if (by decide)]
      split
      · simpa using positive
      · have less : value / 10 < value := Nat.div_lt_self (Nat.pos_of_ne_zero positive) (by decide)
        have higher := inductionHypothesis (value / 10) less (by omega)
        obtain ⟨first, rest, same⟩ := List.exists_cons_of_ne_nil (allDigits_ne_nil (value / 10))
        change (allDigits (value / 10) ++ _).head? ≠ some '0'
        rw [same] at higher ⊢
        exact higher

/-- A number has as many digits as it takes. -/
theorem length_allDigits_le_iff {value count : Nat} (positive : 0 < count) :
    (allDigits value).length ≤ count ↔ value < 10 ^ count :=
  Nat.length_toDigits_le_iff (by decide) positive

theorem lt_pow_length_allDigits (value : Nat) : value < 10 ^ (allDigits value).length :=
  (length_allDigits_le_iff (length_allDigits_pos value)).mp (Nat.le_refl _)

theorem pow_length_allDigits_le {value : Nat} (positive : value ≠ 0) :
    10 ^ ((allDigits value).length - 1) ≤ value := by
  rcases Nat.eq_zero_or_pos ((allDigits value).length - 1) with none | some
  · rw [none]
    exact Nat.pos_of_ne_zero positive
  · rw [← Nat.not_lt, ← length_allDigits_le_iff some]
    omega

theorem ne_of_isDigit {character other : Char} (digit : character.isDigit = true)
    (notDigit : other.isDigit = false) : character ≠ other := by
  rintro rfl
  rw [digit] at notDigit
  contradiction

theorem exists_allDigits_cons (value : Nat) :
    ∃ first rest, allDigits value = first :: rest ∧ first.isDigit = true := by
  obtain ⟨first, rest, same⟩ := List.exists_cons_of_ne_nil (allDigits_ne_nil value)
  exact ⟨first, rest, same, isDigit_of_mem_allDigits (same ▸ List.mem_cons_self)⟩

theorem toList_toString (value : Nat) : (toString value).toList = allDigits value :=
  String.toList_ofList

theorem digits?_allDigits (value : Nat) : digits? (allDigits value) = some value := by
  rw [digits?_eq (allDigits_ne_nil value) fun _ => isDigit_of_mem_allDigits, ofDigitChars_allDigits]

/-- A written number is read back. -/
theorem natural?_toString {value limit : Nat} (small : value ≤ limit) :
    natural? limit (toString value) = some value := by
  have read := digits?_allDigits value
  obtain ⟨first, rest, same, digit⟩ := exists_allDigits_cons value
  have notPlus : first ≠ '+' := ne_of_isDigit digit (by decide)
  rw [natural?, toList_toString, same]
  rw [same] at read
  simp [notPlus, read, small]

/-- A written whole number that a signed machine word holds is read back. -/
theorem integer?_toString {value : Int} (low : -(signedLimit : Int) ≤ value) (high : value < signedLimit) :
    integer? (toString value) = some value := by
  cases value with
  | ofNat size =>
      have small : size < signedLimit := Int.ofNat_lt.mp high
      have read := digits?_allDigits size
      obtain ⟨first, rest, same, digit⟩ := exists_allDigits_cons size
      have notMinus : first ≠ '-' := ne_of_isDigit digit (by decide)
      have notPlus : first ≠ '+' := ne_of_isDigit digit (by decide)
      change integer? (toString size) = _
      rw [integer?, toList_toString, same]
      rw [same] at read
      simp [notMinus, notPlus, read, small]
  | negSucc size =>
      have small : size + 1 ≤ signedLimit := by omega
      have characters : (toString (Int.negSucc size)).toList = '-' :: allDigits (size + 1) := by
        change ("-" ++ toString (size + 1)).toList = _
        rw [String.toList_append, toList_toString]
        rfl
      rw [integer?, characters]
      simp only [digits?_allDigits, Option.bind_eq_bind, Option.bind_some, if_pos small]
      rfl

end Text

namespace Decimal

theorem digitsValue_eq {characters : List Char}
    (digits : ∀ character ∈ characters, character.isDigit = true) :
    digitsValue characters = Nat.ofDigitChars 10 characters 0 := by
  rw [digitsValue, Text.digitsFrom?_eq 0 digits, Option.getD_some]

theorem digitsValue_allDigits (value : Nat) : digitsValue (Text.allDigits value) = value := by
  rw [digitsValue_eq fun _ => Text.isDigit_of_mem_allDigits, Text.ofDigitChars_allDigits]

/-- Digits end where another character stands. -/
theorem spanDigits_append {digits rest : List Char}
    (areDigits : ∀ character ∈ digits, character.isDigit = true)
    (ends : ∀ character, rest.head? = some character → character.isDigit = false) :
    spanDigits (digits ++ rest) = (digits, rest) := by
  rw [spanDigits, List.span_eq_takeWhile_dropWhile, List.takeWhile_append_of_pos areDigits,
    List.dropWhile_append_of_pos areDigits]
  cases rest with
  | nil => simp
  | cons first others =>
      have other := ends first rfl
      simp [other]

end Decimal

end DelayGenerator
