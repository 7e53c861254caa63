/-
This file compares the two ways in which a number is written, as a literal in a document and as a text there. A text
is always read as the number nearest to it, and a literal if it is a whole number of a machine word or has few digits.
-/

import DelayGenerator.Proofs.Json.Written
import DelayGenerator.Proofs.Text.Blank

namespace DelayGenerator

theorem Text.digits?_of_isDigit {digits : List Char} (some : digits ≠ [])
    (areDigits : ∀ character ∈ digits, character.isDigit = true) :
    digits? digits = .some (Decimal.digitsValue digits) := by
  rw [digits?_eq some areDigits, Decimal.digitsValue_eq areDigits]

/-- An exponent part does not go on with the digits in front of it. -/
theorem Decimal.head?_of_exponentPart? {characters : List Char} {exponent : Int}
    (read : exponentPart? characters = some exponent) :
    ∀ character, characters.head? = some character → character.isDigit = false ∧ character ≠ '.' := by
  intro character begins
  cases characters with
  | nil => contradiction
  | cons mark rest =>
      cases begins
      simp only [exponentPart?] at read
      split at read
      next marked =>
        rw [Bool.or_eq_true, beq_iff_eq, beq_iff_eq] at marked
        rcases marked with rfl | rfl <;> decide
      next => contradiction

/-- The signs that an exponent may have: none, plus or minus. -/
def Decimal.exponentSigns : List (List Char) := [[], ['+'], ['-']]

/-- An exponent part is a mark, a sign or none, and digits. -/
theorem Decimal.exponentPart?_of_isDigit {mark : Char} {sign digits : List Char}
    (marked : (mark == 'e' || mark == 'E') = true) (signed : sign ∈ exponentSigns) (some : digits ≠ [])
    (areDigits : ∀ character ∈ digits, character.isDigit = true) :
    exponentPart? (mark :: (sign ++ digits)) =
      .some (if sign = ['-'] then -(digitsValue digits : Int) else digitsValue digits) := by
  have read := Text.digits?_of_isDigit some areDigits
  simp only [exponentSigns, List.mem_cons, List.not_mem_nil, or_false] at signed
  rcases signed with rfl | rfl | rfl
  · obtain ⟨first, others, rfl⟩ := List.exists_cons_of_ne_nil some
    have digit := areDigits first List.mem_cons_self
    have notMinus : first ≠ '-' := Text.ne_of_isDigit digit (by decide)
    have notPlus : first ≠ '+' := Text.ne_of_isDigit digit (by decide)
    simp [exponentPart?, marked, notMinus, notPlus, read]
  · simp [exponentPart?, marked, read]
  · simp [exponentPart?, marked, read]

namespace Json

section

variable {care : Care} {characters rest : List Char}

/-- The digits that are read stand in front of the rest. -/
theorem someDigits_eq_ok {digits : List Char} (read : someDigits care characters = .ok (digits, rest)) :
    characters = digits ++ rest ∧ digits ≠ [] ∧ ∀ character ∈ digits, character.isDigit = true := by
  rw [someDigits, Decimal.spanDigits, List.span_eq_takeWhile_dropWhile] at read
  split at read
  · contradiction
  next found left some same =>
    cases read
    cases same
    exact ⟨List.takeWhile_append_dropWhile.symm, some, fun character => List.mem_takeWhile_imp⟩

theorem wholePart_eq_ok {digits : List Char} (read : wholePart care characters = .ok (digits, rest)) :
    characters = digits ++ rest ∧ digits ≠ [] ∧ ∀ character ∈ digits, character.isDigit = true := by
  obtain ⟨⟨found, left⟩, some, read⟩ := of_bind read
  dsimp only at read
  split at read
  · contradiction
  · cases read
    exact someDigits_eq_ok some

theorem fractionPart_eq_ok {fraction : Option (List Char)}
    (read : fractionPart care characters = .ok (fraction, rest)) :
    (fraction = none ∧ characters = rest) ∨
      ∃ digits, fraction = some digits ∧ characters = '.' :: (digits ++ rest) ∧
        ∀ character ∈ digits, character.isDigit = true := by
  unfold fractionPart at read
  split at read
  next behind =>
    obtain ⟨⟨digits, left⟩, found, same⟩ := of_bind read
    cases same
    obtain ⟨rfl, _, areDigits⟩ := someDigits_eq_ok found
    exact Or.inr ⟨digits, rfl, rfl, areDigits⟩
  next =>
    cases read
    exact Or.inl ⟨rfl, rfl⟩

/-- The exponent is the one that its characters denote in a text. -/
theorem exponentPart_eq_ok {exponent : Option Int}
    (read : exponentPart care characters = .ok (exponent, rest)) :
    ∃ written, characters = written ++ rest ∧ Decimal.exponentPart? written = some (exponent.getD 0) ∧
      ∀ character ∈ written, 0x21 ≤ character.toNat ∧ character.toNat ≤ 0x7E := by
  unfold exponentPart at read
  cases characters with
  | nil =>
      cases read
      exact ⟨[], rfl, rfl, List.forall_mem_nil _⟩
  | cons mark behind =>
      dsimp only at read
      split at read
      next marked =>
        have visible : 0x21 ≤ mark.toNat ∧ mark.toNat ≤ 0x7E := by
          rw [Bool.or_eq_true, beq_iff_eq, beq_iff_eq] at marked
          rcases marked with rfl | rfl <;> decide
        have signed (sign : List Char) {digits left : List Char} (known : sign ∈ Decimal.exponentSigns)
            (found : someDigits care left = .ok (digits, rest)) (begins : behind = sign ++ left)
            (value : exponent = some (if sign = ['-'] then -(Decimal.digitsValue digits : Int)
              else Decimal.digitsValue digits)) :
            ∃ written, mark :: behind = written ++ rest ∧
              Decimal.exponentPart? written = some (exponent.getD 0) ∧
              ∀ character ∈ written, 0x21 ≤ character.toNat ∧ character.toNat ≤ 0x7E := by
          obtain ⟨rfl, some, areDigits⟩ := someDigits_eq_ok found
          refine ⟨mark :: (sign ++ digits), by simp [begins], ?_, ?_⟩
          · rw [value, Option.getD_some, Decimal.exponentPart?_of_isDigit marked known some areDigits]
          · have signs : ∀ sign ∈ Decimal.exponentSigns, Text.IsVisible (String.ofList sign) := by decide
            rw [List.forall_mem_cons, List.forall_mem_append]
            exact ⟨visible, Text.isVisible_ofList.mp (signs sign known), fun character member =>
              Text.visible_of_isDigit (areDigits character member)⟩
        split at read
        all_goals
          obtain ⟨⟨digits, left⟩, found, same⟩ := of_bind read
          cases same
        · exact signed ['-'] (by decide) found rfl rfl
        · exact signed ['+'] (by decide) found rfl rfl
        · exact signed [] (by decide) found rfl rfl
      next =>
        cases read
        exact ⟨[], rfl, rfl, List.forall_mem_nil _⟩

/-- A numeral is read from characters that denote the same decimal number in a text. -/
theorem numeral_eq_ok {negative : Bool} {found : Numeral}
    (read : numeral care negative characters = .ok (found, rest)) :
    (∀ character ∈ found.digits, character.isDigit = true) ∧
      ∃ first others, characters = first :: others ++ rest ∧ first.isDigit = true ∧
        Decimal.unsigned? negative (first :: others) = some found.decimal ∧
        ∀ character ∈ first :: others, 0x21 ≤ character.toNat ∧ character.toNat ≤ 0x7E := by
  obtain ⟨⟨whole, behindWhole⟩, readWhole, read⟩ := of_bind read
  obtain ⟨⟨fraction, behindFraction⟩, readFraction, read⟩ := of_bind read
  obtain ⟨⟨exponent, behindExponent⟩, readExponent, same⟩ := of_bind read
  cases same
  obtain ⟨rfl, some, areDigits⟩ := wholePart_eq_ok readWhole
  obtain ⟨written, rfl, denotes, visible⟩ := exponentPart_eq_ok readExponent
  have ends := Decimal.head?_of_exponentPart? denotes
  have visibleDigits {digits : List Char} (areDigits : ∀ character ∈ digits, character.isDigit = true) :
      ∀ character ∈ digits, 0x21 ≤ character.toNat ∧ character.toNat ≤ 0x7E := fun character member =>
    Text.visible_of_isDigit (areDigits character member)
  obtain ⟨first, others, rfl⟩ := List.exists_cons_of_ne_nil some
  rcases fractionPart_eq_ok readFraction with ⟨rfl, rfl⟩ | ⟨digits, rfl, rfl, areDigitsToo⟩
  · refine ⟨by simpa [Numeral.digits] using areDigits, first, others ++ written, by simp,
      areDigits first List.mem_cons_self, ?_, ?_⟩
    · rw [← List.cons_append, Decimal.unsigned?_whole negative some areDigits ends denotes]
      simp [Numeral.decimal, Numeral.digits, Decimal.digitsValue_eq areDigits]
    · exact List.forall_mem_append.mpr ⟨visibleDigits areDigits, visible⟩
  · have allDigits := List.forall_mem_append.mpr ⟨areDigits, areDigitsToo⟩
    refine ⟨allDigits, first, others ++ '.' :: (digits ++ written), by simp, areDigits first List.mem_cons_self,
      ?_, ?_⟩
    · rw [← List.cons_append, Decimal.unsigned?_eq negative some areDigits areDigitsToo
        (fun character begins => (ends character begins).1) denotes, Numeral.decimal, Numeral.digits,
        Option.getD_some, Decimal.digitsValue_eq allDigits]
    · refine List.forall_mem_append.mpr ⟨visibleDigits areDigits, List.forall_mem_cons.mpr ⟨by decide, ?_⟩⟩
      exact List.forall_mem_append.mpr ⟨visibleDigits areDigitsToo, visible⟩

end

/-- The number that a value is. -/
def number? : Json → Option Binary64
  | .integer value => some (.ofInt value)
  | .number value => some value
  | _ => none

/-- The text is a number and nothing else. -/
def IsLiteral (literal : String) (numeral : Numeral) : Prop :=
  ∃ start, literal.toList = Binary64.sign numeral.negative ++ start ∧
    Json.numeral .close numeral.negative start = .ok (numeral, [])

namespace Numeral

variable {numeral : Numeral}

/-- A numeral with few digits and a small power of ten. -/
def IsShort (numeral : Numeral) : Prop :=
  numeral.decimal.coefficient < 2 * octaveSize ∧ numeral.decimal.exponent.natAbs ≤ 22

/-- A whole number that a machine word holds, signed or not. -/
def IsWord (numeral : Numeral) : Prop :=
  numeral.fraction = none ∧ numeral.exponent = none ∧
    numeral.decimal.coefficient ≤ if numeral.negative then Text.signedLimit else Text.wordLimit

/-- A short numeral is read as the number nearest to it. -/
theorem toNumber_of_isShort (areDigits : ∀ character ∈ numeral.digits, character.isDigit = true)
    (short : numeral.IsShort) : numeral.toNumber = .ok (.number numeral.decimal.toBinary64) := by
  obtain ⟨few, near⟩ := short
  obtain ⟨rank, finite⟩ := Binary64.exists_scaled_short few near
  have nearest := (Binary64.scaled_short few near).symm.trans finite
  rw [toNumber_of_finite areDigits (few.le.trans (by decide)) finite]
  have signed (negative : Bool) : Decimal.toBinary64
      ⟨negative, numeral.decimal.coefficient, numeral.decimal.exponent⟩ = .finite negative rank := by
    cases negative with
    | false => exact nearest
    | true =>
        rw [Binary64.toBinary64_negative, nearest]
        rfl
  exact congrArg (fun value => Except.ok (Json.number value)) (signed numeral.negative).symm

/-- Whole numbers of a machine word are kept, and the nearest number is the one for the whole number. -/
theorem toBinary64_of_whole (isWhole : (numeral.fraction.isNone && numeral.exponent.isNone) = true)
    (fits : Decimal.digitsValue numeral.whole ≤ Text.wordLimit) :
    numeral.decimal.toBinary64 = .ofRatio numeral.negative (Decimal.digitsValue numeral.whole) 1 := by
  obtain ⟨negative, whole, fraction, exponent⟩ := numeral
  rw [Bool.and_eq_true, Option.isNone_iff_eq_none, Option.isNone_iff_eq_none] at isWhole
  obtain ⟨rfl, rfl⟩ := isWhole
  have same : decimal ⟨negative, whole, none, none⟩ = ⟨negative, Decimal.digitsValue whole, 0⟩ := by
    simp [decimal, digits]
  rw [same]
  exact Binary64.toBinary64_whole negative fits

/-- A whole number of a machine word, or a short number, is read as the number nearest to it. -/
theorem exists_toJson (areDigits : ∀ character ∈ numeral.digits, character.isDigit = true)
    (simple : numeral.IsWord ∨ numeral.IsShort) :
    ∃ value, numeral.toJson = .ok value ∧ value.number? = some numeral.decimal.toBinary64 := by
  unfold toJson
  dsimp only
  split
  next word =>
    simp only [Bool.and_eq_true, Bool.not_eq_true', decide_eq_true_eq] at word
    obtain ⟨⟨isWhole, positive⟩, fits⟩ := word
    refine ⟨_, rfl, ?_⟩
    rw [number?, Binary64.ofInt_natCast, toBinary64_of_whole (by simpa using isWhole) fits, positive]
  next notWord =>
    split
    next word =>
      simp only [Bool.and_eq_true, bne_iff_ne, decide_eq_true_eq] at word
      obtain ⟨⟨⟨isWhole, negative⟩, some⟩, fits⟩ := word
      have sign : decide (-(Decimal.digitsValue numeral.whole : Int) < 0) = true := by
        simpa using Nat.pos_of_ne_zero some
      refine ⟨_, rfl, ?_⟩
      rw [number?, Binary64.ofInt, sign, Int.natAbs_neg, Int.natAbs_natCast,
        toBinary64_of_whole (by simpa using isWhole) (fits.trans (by decide)), negative]
    next notSigned =>
      refine ⟨_, toNumber_of_isShort areDigits (simple.elim (fun word => ?_) id), rfl⟩
      -- Of the whole numbers that fit, only minus zero is not kept.
      obtain ⟨noFraction, noExponent, fits⟩ := word
      have zero : numeral.decimal.coefficient = 0 := by
        simp only [decimal, digits, noFraction, Option.getD_none, List.append_nil] at fits ⊢
        by_contra some
        cases sign : numeral.negative with
        | false =>
            rw [sign] at fits
            exact notWord (by simp [noFraction, noExponent, sign, show _ ≤ Text.wordLimit from fits])
        | true =>
            rw [sign] at fits
            exact notSigned (by simp [noFraction, noExponent, sign, some, show _ ≤ Text.signedLimit from fits])
      rw [IsShort, zero]
      simp [decimal, noFraction, noExponent, Binary64.octaveSize_pos]

end Numeral

section

variable {literal : String} {numeral : Numeral}

theorem IsLiteral.areDigits (written : IsLiteral literal numeral) :
    ∀ character ∈ numeral.digits, character.isDigit = true := by
  obtain ⟨start, _, read⟩ := written
  exact (numeral_eq_ok read).1

/-- As a text, a literal is read as the number nearest to it. -/
theorem IsLiteral.ofText? (written : IsLiteral literal numeral) :
    Text.IsVisible literal ∧ Binary64.ofText? literal = some numeral.decimal.toBinary64 := by
  obtain ⟨start, same, read⟩ := written
  obtain ⟨_, first, others, rfl, digit, denotes, visible⟩ := numeral_eq_ok read
  rw [List.append_nil] at same
  have sign : Text.IsVisible (String.ofList (Binary64.sign numeral.negative)) := by
    cases numeral.negative <;> decide
  rw [← String.toList_inj.mp (String.toList_ofList.trans same.symm), Text.isVisible_ofList, List.forall_mem_append,
    Binary64.ofText?_sign numeral.negative digit, denotes, Option.map_some]
  exact ⟨⟨Text.isVisible_ofList.mp sign, visible⟩, rfl⟩

/-- In a document, a literal is read as the value of its numeral. -/
theorem IsLiteral.parse {value : Json} (written : IsLiteral literal numeral) (kept : numeral.toJson = .ok value) :
    Json.parse literal = .ok value := by
  obtain ⟨start, same, read⟩ := written
  have number : readNumber numeral.negative start = .ok (value, []) := by
    simp only [readNumber, read, kept, bind, Except.bind]
  rw [← List.append_nil start] at number
  have spells : Spells depthLimit _ value [] := spells_signed isSpace_nil number
  rw [List.nil_append, List.append_nil, ← same, ← read_eq_ok_iff] at spells
  rw [Json.parse, spells]
  rfl

end

end Json

end DelayGenerator
