/-
This file says how a command for a channel is written. The channel may be spelled in many ways, and blanks around the
argument do not count.
-/

import DelayGenerator.Proofs.Instrument

namespace DelayGenerator

namespace Text

section

variable {α : Type} {test : α → Bool} {items before after : List α}

theorem splitAtFirst?_eq_some : splitAtFirst? test items = some (before, after) ↔
    ∃ mark, test mark = true ∧ (∀ item ∈ before, test item = false) ∧ items = before ++ mark :: after := by
  constructor
  · intro split
    have parts := @List.takeWhile_append_dropWhile _ (fun item => !test item) items
    have stops := @List.head?_dropWhile_not _ (fun item => !test item) items
    rw [splitAtFirst?] at split
    cases behind : items.dropWhile fun item => !test item with
    | nil => simp [behind] at split
    | cons mark rest =>
        rw [behind] at split stops parts
        cases split
        refine ⟨mark, by simpa using stops, fun item member => ?_, parts.symm⟩
        simpa using List.mem_takeWhile_imp member
  · rintro ⟨mark, found, passed, rfl⟩
    exact splitAtFirst?_append passed found after

theorem splitAtFirst?_eq_none_iff :
    splitAtFirst? test items = none ↔ ∀ item ∈ items, test item = false := by
  constructor
  · intro none
    rw [splitAtFirst?] at none
    split at none
    next all => simpa using List.dropWhile_eq_nil_iff.mp all
    next => contradiction
  · exact splitAtFirst?_eq_none

end

/-- Digits denote a number; a plus sign may stand in front of them. -/
inductive Denotes : String → Nat → Prop
  | digits {digits : List Char} (some : digits ≠ []) (areDigits : ∀ character ∈ digits, character.isDigit = true) :
      Denotes (String.ofList digits) (Nat.ofDigitChars 10 digits 0)
  | plus {digits : List Char} (some : digits ≠ []) (areDigits : ∀ character ∈ digits, character.isDigit = true) :
      Denotes (String.ofList ('+' :: digits)) (Nat.ofDigitChars 10 digits 0)

theorem isDigit_of_digitsFrom? {high value : Nat} {characters : List Char}
    (read : digitsFrom? high characters = some value) : ∀ character ∈ characters, character.isDigit = true := by
  induction characters generalizing high with
  | nil => simp
  | cons first rest inductionHypothesis =>
      rw [digitsFrom?, digitValue?] at read
      by_cases digit : first.isDigit = true
      · rw [if_pos digit] at read
        intro character member
        rcases List.mem_cons.mp member with rfl | member
        · exact digit
        · exact inductionHypothesis read character member
      · rw [if_neg digit] at read
        contradiction

theorem digits?_eq_some {value : Nat} {characters : List Char} : digits? characters = some value ↔
    characters ≠ [] ∧ (∀ character ∈ characters, character.isDigit = true) ∧
      Nat.ofDigitChars 10 characters 0 = value := by
  constructor
  · intro read
    cases characters with
    | nil => contradiction
    | cons first rest =>
        have areDigits := isDigit_of_digitsFrom? read
        rw [digits?_eq (List.cons_ne_nil _ _) areDigits, Option.some_inj] at read
        exact ⟨List.cons_ne_nil _ _, areDigits, read⟩
  · rintro ⟨some, areDigits, rfl⟩
    exact digits?_eq some areDigits

theorem natural?_eq_some {limit value : Nat} {text : String} :
    natural? limit text = some value ↔ Denotes text value ∧ value ≤ limit := by
  constructor
  · intro read
    obtain ⟨number, digits, small⟩ := Option.bind_eq_some_iff.mp read
    obtain ⟨within, same⟩ := Option.ite_none_right_eq_some.mp small
    cases same
    refine ⟨?_, within⟩
    rw [← @String.ofList_toList text]
    split at digits
    next rest begins =>
      obtain ⟨some, areDigits, rfl⟩ := digits?_eq_some.mp digits
      rw [begins]
      exact .plus some areDigits
    next =>
      obtain ⟨some, areDigits, rfl⟩ := digits?_eq_some.mp digits
      exact .digits some areDigits
  · rintro ⟨denotes, within⟩
    cases denotes with
    | @digits digits some areDigits =>
        have notPlus : ∀ rest, digits ≠ '+' :: rest := by
          rintro rest rfl
          exact absurd (areDigits '+' List.mem_cons_self) (by decide)
        rw [natural?, String.toList_ofList]
        split
        next rest => exact absurd rfl (notPlus rest)
        next => simp [digits?_eq some areDigits, within]
    | plus some areDigits =>
        rw [natural?, String.toList_ofList]
        simp [digits?_eq some areDigits, within]

theorem Denotes.ne_colon {text : String} {value : Nat} (denotes : Denotes text value) :
    ∀ character ∈ text.toList, (character == ':') = false := by
  intro character member
  refine beq_false_of_ne ?_
  cases denotes with
  | digits some areDigits =>
      rw [String.toList_ofList] at member
      exact ne_of_isDigit (areDigits character member) (by decide)
  | plus some areDigits =>
      rw [String.toList_ofList] at member
      rcases List.mem_cons.mp member with rfl | member
      · decide
      · exact ne_of_isDigit (areDigits character member) (by decide)

/-- What is dropped at the end satisfies the test. -/
theorem exists_dropTrailing {α : Type} (test : α → Bool) (items : List α) :
    ∃ last, (∀ item ∈ last, test item = true) ∧ items = dropTrailing test items ++ last := by
  induction items with
  | nil => exact ⟨[], by simp, rfl⟩
  | cons first rest inductionHypothesis =>
      obtain ⟨last, dropped, parts⟩ := inductionHypothesis
      rw [dropTrailing]
      split
      next none =>
        rw [none, List.nil_append] at parts
        subst parts
        split
        next drops => exact ⟨first :: rest, by simpa [drops] using dropped, rfl⟩
        next => exact ⟨rest, dropped, rfl⟩
      next => exact ⟨last, dropped, by rw [List.cons_append, ← parts]⟩

/-- A text with no blanks around it. -/
def IsTrimmed (text : String) : Prop := trim text = text

theorem surrounds_trim (text : String) : Surrounds (trim text) text := by
  obtain ⟨last, blank, parts⟩ := exists_dropTrailing isBlank (text.toList.dropWhile isBlank)
  refine ⟨text.toList.takeWhile isBlank, last, fun _ => List.mem_takeWhile_imp, blank, ?_⟩
  rw [trim, ← String.ofList_append, ← String.ofList_append, List.append_assoc, ← parts,
    List.takeWhile_append_dropWhile, String.ofList_toList]

theorem trim_eq_iff {core text : String} : trim text = core ↔ IsTrimmed core ∧ Surrounds core text := by
  constructor
  · rintro rfl
    exact ⟨(surrounds_trim text).trim_eq.symm, surrounds_trim text⟩
  · rintro ⟨trimmed, surrounds⟩
    exact surrounds.trim_eq.trans trimmed

end Text

namespace Instrument

/-- How a command for a channel is written. The name ends at the first space; all that comes behind this space is the
argument, with blanks around it. -/
inductive Addressed.Writes : Addressed → String → Prop
  | bare {number : Nat} {numeral name : String} (denotes : Text.Denotes numeral number)
      (small : number ≤ Text.wordLimit) (noSpace : ∀ character ∈ name.toList, (character == ' ') = false) :
      Writes ⟨number, name, none⟩ (":PULSE" ++ numeral ++ ":" ++ name)
  | withArgument {number : Nat} {numeral name argument spaced : String} (denotes : Text.Denotes numeral number)
      (small : number ≤ Text.wordLimit) (noSpace : ∀ character ∈ name.toList, (character == ' ') = false)
      (trimmed : Text.IsTrimmed argument) (surrounds : Text.Surrounds argument spaced) :
      Writes ⟨number, name, some argument⟩ (":PULSE" ++ numeral ++ ":" ++ name ++ " " ++ spaced)

section

variable {addressed : Addressed} {command : String}

theorem Addressed.ofText?_written {number : Nat} {numeral : String} (denotes : Text.Denotes numeral number)
    (small : number ≤ Text.wordLimit) (tail : String) :
    Addressed.ofText? (":PULSE" ++ numeral ++ ":" ++ tail) =
      match Text.splitAtFirst? (· == ' ') tail.toList with
      | some (name, argument) =>
        some ⟨number, String.ofList name, some (Text.trim (String.ofList argument))⟩
      | none => some ⟨number, tail, none⟩ := by
  have begins : Text.after? ":PULSE" (":PULSE" ++ numeral ++ ":" ++ tail) = some (numeral ++ ":" ++ tail) := by
    rw [String.append_assoc, String.append_assoc, ← @String.append_assoc numeral]
    exact Text.after?_append _ _
  have colon : Text.splitAtFirst? (· == ':') (numeral ++ ":" ++ tail).toList =
      some (numeral.toList, tail.toList) := by
    rw [String.append_assoc, String.toList_append, String.toList_append]
    exact Text.splitAtFirst?_append denotes.ne_colon rfl tail.toList
  have read := Text.natural?_eq_some.mpr ⟨denotes, small⟩
  cases space : Text.splitAtFirst? (· == ' ') tail.toList <;>
    simp only [Addressed.ofText?, begins, colon, String.ofList_toList, read, Option.bind_eq_bind, Option.bind_some,
      space]

theorem Addressed.ofText?_eq_some : Addressed.ofText? command = some addressed ↔ addressed.Writes command := by
  constructor
  · intro read
    obtain ⟨rest, begins, read⟩ := Option.bind_eq_some_iff.mp read
    obtain ⟨⟨number, tail⟩, colon, read⟩ := Option.bind_eq_some_iff.mp read
    obtain ⟨channel, numeral, read⟩ := Option.bind_eq_some_iff.mp read
    obtain ⟨denotes, small⟩ := Text.natural?_eq_some.mp numeral
    obtain ⟨mark, isColon, _, parts⟩ := Text.splitAtFirst?_eq_some.mp colon
    have spelled : command = ":PULSE" ++ String.ofList number ++ ":" ++ String.ofList tail := by
      rw [Text.after?_eq_some.mp begins, ← @String.ofList_toList rest, parts, eq_of_beq isColon]
      simp [← String.toList_inj]
    split at read
    next name argument space =>
      obtain ⟨mark, isSpace, noSpace, parts⟩ := Text.splitAtFirst?_eq_some.mp space
      obtain ⟨trimmed, surrounds⟩ := Text.trim_eq_iff.mp (@rfl _ (Text.trim (String.ofList argument)))
      cases read
      have tails : String.ofList tail = String.ofList name ++ " " ++ String.ofList argument := by
        rw [parts, eq_of_beq isSpace]
        simp [← String.toList_inj]
      rw [spelled, tails, ← String.append_assoc, ← String.append_assoc]
      exact .withArgument denotes small (by simpa using noSpace) trimmed surrounds
    next none =>
      cases read
      rw [spelled]
      exact .bare denotes small (by simpa using Text.splitAtFirst?_eq_none_iff.mp none)
  · intro writes
    cases writes with
    | bare denotes small noSpace =>
        rw [ofText?_written denotes small, Text.splitAtFirst?_eq_none noSpace]
    | @withArgument _ _ name _ spaced denotes small noSpace trimmed surrounds =>
        have space : (name ++ " " ++ spaced).toList = name.toList ++ ' ' :: spaced.toList := by simp
        rw [String.append_assoc, String.append_assoc, ← @String.append_assoc name, ofText?_written denotes small, space,
          Text.splitAtFirst?_append noSpace rfl]
        simp [Text.trim_eq_iff.mpr ⟨trimmed, surrounds⟩]

end

end Instrument

end DelayGenerator
