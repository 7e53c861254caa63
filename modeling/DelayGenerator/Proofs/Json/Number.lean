/-
This file reads the numbers of documents: digits in whatever layout denote a decimal number, and whole numbers of a
machine word are read back.
-/

import DelayGenerator.Json.Printer
import DelayGenerator.Json.Lexeme
import DelayGenerator.Proofs.Binary64.Notation
import DelayGenerator.Proofs.Binary64.Scaling

namespace DelayGenerator.Json

/-- What stands behind a number does not go on with it. -/
def EndsNumber (rest : List Char) : Prop :=
  ∀ character, rest.head? = some character →
    character.isDigit = false ∧ character ≠ '.' ∧ character ≠ 'e' ∧ character ≠ 'E'

theorem endsNumber_nil : EndsNumber [] := fun _ same => by contradiction

theorem endsNumber_cons {character : Char} (other : character.isDigit = false) (noPoint : character ≠ '.')
    (noSmall : character ≠ 'e') (noLarge : character ≠ 'E') (rest : List Char) :
    EndsNumber (character :: rest) := by
  intro first same
  cases same
  exact ⟨other, noPoint, noSmall, noLarge⟩

/-- Digits that may stand in front of the point. -/
structure IsWhole (digits : List Char) : Prop where
  nonempty : digits ≠ []
  areDigits : ∀ character ∈ digits, character.isDigit = true
  plain : digits.length = 1 ∨ digits.head? ≠ some '0'

section

variable {care : Care} {digits whole fraction rest : List Char} {exponent : Int}

theorem someDigits_append (some : digits ≠ []) (areDigits : ∀ character ∈ digits, character.isDigit = true)
    (ends : ∀ character, rest.head? = .some character → character.isDigit = false) :
    someDigits care (digits ++ rest) = .ok (digits, rest) := by
  rw [someDigits, Decimal.spanDigits_append areDigits ends]
  cases digits with
  | nil => contradiction
  | cons first others => rfl

theorem wholePart_append (isWhole : IsWhole whole)
    (ends : ∀ character, rest.head? = .some character → character.isDigit = false) :
    wholePart care (whole ++ rest) = .ok (whole, rest) := by
  rw [wholePart, someDigits_append isWhole.nonempty isWhole.areDigits ends]
  have plain : (whole.length != 1 && whole.head? == .some '0') = false := by
    rcases isWhole.plain with single | other
    · simp [single]
    · simp [other]
  simp only [bind, Except.bind, plain, Bool.false_eq_true, if_false]

theorem fractionPart_append (some : fraction ≠ [])
    (areDigits : ∀ character ∈ fraction, character.isDigit = true)
    (ends : ∀ character, rest.head? = .some character → character.isDigit = false) :
    fractionPart care ('.' :: (fraction ++ rest)) = .ok (.some fraction, rest) := by
  rw [fractionPart, someDigits_append some areDigits ends]
  rfl

theorem fractionPart_none (ends : ∀ character, rest.head? = .some character → character ≠ '.') :
    fractionPart care rest = .ok (none, rest) := by
  cases rest with
  | nil => rfl
  | cons first others =>
      have noPoint : first ≠ '.' := ends first rfl
      unfold fractionPart
      split
      · simp_all
      · rfl

theorem exponentPart_none (ends : EndsNumber rest) : exponentPart care rest = .ok (none, rest) := by
  cases rest with
  | nil => rfl
  | cons first others =>
      obtain ⟨_, _, noSmall, noLarge⟩ := ends first rfl
      simp [exponentPart, noSmall, noLarge]

/-- A written exponent with its sign is read back. -/
theorem exponentPart_signedText (ends : EndsNumber rest) :
    exponentPart care ('e' :: (Binary64.signedText exponent ++ rest)) = .ok (some exponent, rest) := by
  have noDigit : ∀ character, rest.head? = .some character → character.isDigit = false :=
    fun character same => (ends character same).1
  have read : someDigits care (Text.allDigits exponent.natAbs ++ rest) =
      .ok (Text.allDigits exponent.natAbs, rest) :=
    someDigits_append (Text.allDigits_ne_nil _) (fun _ => Text.isDigit_of_mem_allDigits) noDigit
  have value := Decimal.digitsValue_allDigits exponent.natAbs
  rw [Binary64.signedText, Binary64.integerText]
  by_cases below : exponent < 0
  · have back : -(exponent.natAbs : Int) = exponent := by omega
    simp only [below, if_true, List.cons_append, exponentPart, read, value, bind, Except.bind, back]
    rfl
  · obtain ⟨first, others, same⟩ := List.exists_cons_of_ne_nil (Text.allDigits_ne_nil exponent.natAbs)
    have back : (exponent.natAbs : Int) = exponent := by omega
    simp only [below, if_false, List.cons_append, exponentPart, read, value, bind, Except.bind, back]
    rfl

/-- What stands behind the first digits is no digit. -/
theorem head?_cons_not_isDigit {mark : Char} (other : mark.isDigit = false) (rest : List Char) :
    ∀ character, (mark :: rest).head? = some character → character.isDigit = false := by
  intro character same
  cases same
  exact other

variable {negative : Bool}

/-- A number with a point and no exponent. -/
theorem numeral_point (isWhole : IsWhole whole) (some : fraction ≠ [])
    (areDigits : ∀ character ∈ fraction, character.isDigit = true) (ends : EndsNumber rest) :
    numeral care negative (whole ++ '.' :: (fraction ++ rest)) =
      .ok (⟨negative, whole, .some fraction, none⟩, rest) := by
  have fractionEnds : ∀ character, rest.head? = .some character → character.isDigit = false :=
    fun character same => (ends character same).1
  have first : wholePart care (whole ++ '.' :: (fraction ++ rest)) = .ok (whole, '.' :: (fraction ++ rest)) :=
    wholePart_append isWhole (head?_cons_not_isDigit rfl _)
  simp only [numeral, first, fractionPart_append some areDigits fractionEnds, exponentPart_none ends, bind,
    Except.bind]

/-- A number with an exponent and no point. -/
theorem numeral_exponent (isWhole : IsWhole whole) (ends : EndsNumber rest) :
    numeral care negative (whole ++ 'e' :: (Binary64.signedText exponent ++ rest)) =
      .ok (⟨negative, whole, none, .some exponent⟩, rest) := by
  have first : wholePart care (whole ++ 'e' :: (Binary64.signedText exponent ++ rest)) =
      .ok (whole, 'e' :: (Binary64.signedText exponent ++ rest)) :=
    wholePart_append isWhole (head?_cons_not_isDigit rfl _)
  have second : fractionPart care ('e' :: (Binary64.signedText exponent ++ rest)) =
      .ok (none, 'e' :: (Binary64.signedText exponent ++ rest)) := rfl
  simp only [numeral, first, second, exponentPart_signedText ends, bind, Except.bind]

/-- A number with a point and an exponent. -/
theorem numeral_point_exponent (isWhole : IsWhole whole) (some : fraction ≠ [])
    (areDigits : ∀ character ∈ fraction, character.isDigit = true) (ends : EndsNumber rest) :
    numeral care negative (whole ++ '.' :: (fraction ++ 'e' :: (Binary64.signedText exponent ++ rest))) =
      .ok (⟨negative, whole, .some fraction, .some exponent⟩, rest) := by
  have first : wholePart care (whole ++ '.' :: (fraction ++ 'e' :: (Binary64.signedText exponent ++ rest))) =
      .ok (whole, '.' :: (fraction ++ 'e' :: (Binary64.signedText exponent ++ rest))) :=
    wholePart_append isWhole (head?_cons_not_isDigit rfl _)
  have second : fractionPart care ('.' :: (fraction ++ 'e' :: (Binary64.signedText exponent ++ rest))) =
      .ok (.some fraction, 'e' :: (Binary64.signedText exponent ++ rest)) :=
    fractionPart_append some areDigits (head?_cons_not_isDigit rfl _)
  simp only [numeral, first, second, exponentPart_signedText ends, bind, Except.bind]

end

/-- The digits of a numeral. -/
def Numeral.digits (numeral : Numeral) : List Char := numeral.whole ++ numeral.fraction.getD []

/-- The decimal number that a numeral denotes. -/
def Numeral.decimal (numeral : Numeral) : Decimal :=
  ⟨numeral.negative, Decimal.digitsValue numeral.digits,
    numeral.exponent.getD 0 - (numeral.fraction.getD []).length⟩

theorem le_ofDigitChars (digits : List Char) (word : Nat) : word ≤ Nat.ofDigitChars 10 digits word := by
  induction digits generalizing word with
  | nil => exact Nat.le_refl _
  | cons digit others inductionHypothesis =>
      exact (by omega : word ≤ 10 * word + (digit.toNat - '0'.toNat)).trans (inductionHypothesis _)

/-- Digits that a machine word holds are all taken. -/
theorem fitDigits_of_le {digits : List Char} {word : Nat} (fits : Nat.ofDigitChars 10 digits word ≤ Text.wordLimit) :
    fitDigits word digits = (Nat.ofDigitChars 10 digits word, []) := by
  induction digits generalizing word with
  | nil => rfl
  | cons digit others inductionHypothesis =>
      have longer : 10 * word + (digit.toNat - '0'.toNat) ≤ Text.wordLimit := (le_ofDigitChars others _).trans fits
      rw [fitDigits, if_pos longer]
      exact inductionHypothesis fits

/-- A numeral of which a machine word holds the digits is taken for its decimal number. -/
theorem Numeral.parts_eq {numeral : Numeral} (areDigits : ∀ character ∈ numeral.digits, character.isDigit = true)
    (fits : numeral.decimal.coefficient ≤ Text.wordLimit) :
    numeral.parts = (numeral.decimal.coefficient, numeral.decimal.exponent) := by
  rw [decimal, Decimal.digitsValue_eq areDigits] at fits ⊢
  rw [digits, Nat.ofDigitChars_append] at fits ⊢
  have whole : Nat.ofDigitChars 10 numeral.whole 0 ≤ Text.wordLimit := (le_ofDigitChars _ _).trans fits
  rw [parts]
  dsimp only
  rw [fitDigits_of_le whole]
  dsimp only
  rw [fitDigits_of_le fits]
  simp

/-- A numeral of which a machine word holds the digits is read as the product of its digits and its power of ten. -/
theorem Numeral.toNumber_of_finite {numeral : Numeral}
    (areDigits : ∀ character ∈ numeral.digits, character.isDigit = true)
    (fits : numeral.decimal.coefficient ≤ Text.wordLimit) {rank : Fin finiteCount}
    (finite : Binary64.scaled numeral.decimal.coefficient numeral.decimal.exponent = .finite false rank) :
    numeral.toNumber = .ok (.number (.finite numeral.negative rank)) := by
  have parts := parts_eq areDigits fits
  simp only [toNumber, parts, finite, Binary64.isFinite, if_true]
  cases numeral.negative <;> rfl

theorem Numeral.toJson_of_notWhole {numeral : Numeral}
    (notWhole : (numeral.fraction.isNone && numeral.exponent.isNone) = false) :
    numeral.toJson = numeral.toNumber := by
  simp only [toJson, notWhole, Bool.false_and, Bool.false_eq_true, if_false]

/-- The text is a numeral with a point or an exponent that denotes a decimal number, whatever stands behind it. -/
structure IsWritten (text : List Char) (decimal : Decimal) (read : Numeral) : Prop where
  same : read.decimal = decimal
  areDigits : ∀ character ∈ read.digits, character.isDigit = true
  notWhole : (read.fraction.isNone && read.exponent.isNone) = false
  numeral : ∀ (care : Care) (rest : List Char), EndsNumber rest →
    Json.numeral care decimal.negative (text ++ rest) = .ok (read, rest)

/-- Digits of which the first is no zero may stand in front of the point. -/
theorem isWhole_of_head? {digits : List Char} {first : Char} (begins : digits.head? = some first)
    (noZero : first ≠ '0') (areDigits : ∀ character ∈ digits, character.isDigit = true) : IsWhole digits where
  nonempty := by
    rintro rfl
    contradiction
  areDigits := areDigits
  plain := by
    rw [begins]
    exact Or.inr fun same => noZero (Option.some.inj same)

theorem exists_head?_allDigits {value : Nat} (positive : value ≠ 0) :
    ∃ first, (Text.allDigits value).head? = some first ∧ first ≠ '0' := by
  obtain ⟨first, rest, same⟩ := List.exists_cons_of_ne_nil (Text.allDigits_ne_nil value)
  have noZero := Text.head?_allDigits_ne_zero positive
  rw [same] at noZero ⊢
  exact ⟨first, rfl, fun zero => noZero (congrArg some zero)⟩

theorem isDigit_of_mem_zero : ∀ character ∈ ['0'], character.isDigit = true :=
  List.forall_mem_singleton.mpr rfl

theorem isDigit_of_mem_zeros {count : Nat} {character : Char} (member : character ∈ List.replicate count '0') :
    character.isDigit = true := by
  rw [List.eq_of_mem_replicate member]
  rfl

section

variable (negative : Bool) {digits : Binary64.Digits}

/-- Digits with zeros and a point behind them denote their number. -/
theorem exists_isWritten_withZeros (positive : digits.coefficient ≠ 0) :
    ∃ read, IsWritten
      (Text.allDigits digits.coefficient ++ List.replicate digits.exponent.toNat '0' ++ ['.', '0'])
      ⟨negative, digits.coefficient * 10 ^ (digits.exponent.toNat + 1), -1⟩ read := by
  obtain ⟨first, begins, noZero⟩ := exists_head?_allDigits positive
  have areDigits : ∀ character ∈ Text.allDigits digits.coefficient ++ List.replicate digits.exponent.toNat '0',
      character.isDigit = true := fun character member =>
    (List.mem_append.mp member).elim Text.isDigit_of_mem_allDigits isDigit_of_mem_zeros
  have begins : (Text.allDigits digits.coefficient ++ List.replicate digits.exponent.toNat '0').head? =
      some first := by rw [List.head?_append, begins, Option.some_or]
  have allDigits : ∀ character ∈ Text.allDigits digits.coefficient ++
      List.replicate digits.exponent.toNat '0' ++ ['0'], character.isDigit = true :=
    List.forall_mem_append.mpr ⟨areDigits, isDigit_of_mem_zero⟩
  refine ⟨⟨negative, Text.allDigits digits.coefficient ++ List.replicate digits.exponent.toNat '0', some ['0'],
    none⟩, ?_, allDigits, rfl, fun care rest ends => ?_⟩
  · simp only [Numeral.decimal, Numeral.digits, Option.getD_some, Decimal.digitsValue_eq allDigits,
      Nat.ofDigitChars_append, Text.ofDigitChars_allDigits, Nat.ofDigitChars_replicate_zero]
    refine Decimal.mk.injEq .. |>.mpr ⟨rfl, ?_, rfl⟩
    change 10 * (10 ^ digits.exponent.toNat * digits.coefficient) + 0 = _
    ring
  · rw [List.append_assoc _ ['.', '0'] rest]
    exact numeral_point (isWhole_of_head? begins noZero areDigits) (List.cons_ne_nil _ _) isDigit_of_mem_zero
      ends

/-- Digits around a point denote their number. -/
theorem exists_isWritten_around (positive : digits.coefficient ≠ 0) {count : Nat} (some : count ≠ 0)
    (exponent : digits.exponent = count - (Text.allDigits digits.coefficient).length)
    (fraction : digits.exponent < 0) :
    ∃ read, IsWritten ((Text.allDigits digits.coefficient).take count ++
      '.' :: (Text.allDigits digits.coefficient).drop count)
      ⟨negative, digits.coefficient, digits.exponent⟩ read := by
  obtain ⟨first, begins, noZero⟩ := exists_head?_allDigits positive
  have areDigits : ∀ character ∈ (Text.allDigits digits.coefficient).take count, character.isDigit = true :=
    fun character member => Text.isDigit_of_mem_allDigits (List.mem_of_mem_take member)
  have areDigitsToo : ∀ character ∈ (Text.allDigits digits.coefficient).drop count, character.isDigit = true :=
    fun character member => Text.isDigit_of_mem_allDigits (List.mem_of_mem_drop member)
  have more : (Text.allDigits digits.coefficient).drop count ≠ [] := by
    rw [Ne, List.drop_eq_nil_iff]
    omega
  refine ⟨⟨negative, (Text.allDigits digits.coefficient).take count,
    .some ((Text.allDigits digits.coefficient).drop count), none⟩, ?_,
    List.forall_mem_append.mpr ⟨areDigits, areDigitsToo⟩, rfl, fun care rest ends => ?_⟩
  · simp only [Numeral.decimal, Numeral.digits, Option.getD_some, List.take_append_drop,
      Decimal.digitsValue_allDigits, Option.getD_none, List.length_drop]
    refine Decimal.mk.injEq .. |>.mpr ⟨rfl, rfl, ?_⟩
    omega
  · rw [List.append_assoc]
    refine numeral_point (isWhole_of_head? ?_ noZero areDigits) more areDigitsToo ends
    rw [List.head?_take, if_neg some, begins]

/-- Digits behind a point and zeros denote their number. -/
theorem exists_isWritten_behind {count : Nat}
    (exponent : digits.exponent = -(count : Int) - (Text.allDigits digits.coefficient).length) :
    ∃ read, IsWritten ('0' :: '.' :: (List.replicate count '0' ++ Text.allDigits digits.coefficient))
      ⟨negative, digits.coefficient, digits.exponent⟩ read := by
  have areDigits : ∀ character ∈ List.replicate count '0' ++ Text.allDigits digits.coefficient,
      character.isDigit = true := fun character member =>
    (List.mem_append.mp member).elim isDigit_of_mem_zeros Text.isDigit_of_mem_allDigits
  have allDigits : ∀ character ∈ ['0'] ++ (List.replicate count '0' ++ Text.allDigits digits.coefficient),
      character.isDigit = true := List.forall_mem_append.mpr ⟨isDigit_of_mem_zero, areDigits⟩
  have isWhole : IsWhole ['0'] := ⟨List.cons_ne_nil _ _, isDigit_of_mem_zero, Or.inl rfl⟩
  have some : List.replicate count '0' ++ Text.allDigits digits.coefficient ≠ [] :=
    List.append_ne_nil_of_right_ne_nil _ (Text.allDigits_ne_nil _)
  refine ⟨⟨negative, ['0'], .some (List.replicate count '0' ++ Text.allDigits digits.coefficient), none⟩, ?_,
    allDigits, rfl, fun care rest ends => numeral_point isWhole some areDigits ends⟩
  simp only [Numeral.decimal, Numeral.digits, Option.getD_some, Decimal.digitsValue_eq allDigits,
    Nat.ofDigitChars_append, Nat.ofDigitChars_replicate_zero, Option.getD_none, List.length_append,
    List.length_replicate]
  refine Decimal.mk.injEq .. |>.mpr ⟨rfl, ?_, by omega⟩
  change Nat.ofDigitChars 10 (Text.allDigits digits.coefficient) (10 ^ count * 0) = _
  rw [Nat.mul_zero, Text.ofDigitChars_allDigits]

theorem exists_isWritten_scientific (positive : digits.coefficient ≠ 0) :
    ∃ read, IsWritten (digits.scientific Binary64.signedText) ⟨negative, digits.coefficient, digits.exponent⟩
      read := by
  obtain ⟨first, begins, noZero⟩ := exists_head?_allDigits positive
  have length := Text.length_allDigits_pos digits.coefficient
  have areDigits : ∀ character ∈ (Text.allDigits digits.coefficient).take 1, character.isDigit = true :=
    fun character member => Text.isDigit_of_mem_allDigits (List.mem_of_mem_take member)
  have areDigitsToo : ∀ character ∈ (Text.allDigits digits.coefficient).drop 1, character.isDigit = true :=
    fun character member => Text.isDigit_of_mem_allDigits (List.mem_of_mem_drop member)
  have isWhole : IsWhole ((Text.allDigits digits.coefficient).take 1) := by
    refine isWhole_of_head? ?_ noZero areDigits
    rw [List.head?_take, if_neg Nat.one_ne_zero, begins]
  have allDigits := List.forall_mem_append.mpr ⟨areDigits, areDigitsToo⟩
  have together : Decimal.digitsValue ((Text.allDigits digits.coefficient).take 1 ++
      (Text.allDigits digits.coefficient).drop 1) = digits.coefficient := by
    rw [List.take_append_drop, Decimal.digitsValue_allDigits]
  unfold Binary64.Digits.scientific
  dsimp only
  split
  next none =>
    rw [none] at allDigits together
    rw [List.drop_eq_nil_iff] at none
    refine ⟨⟨negative, (Text.allDigits digits.coefficient).take 1, .none,
      .some (digits.exponent + (Text.allDigits digits.coefficient).length - 1)⟩, ?_, allDigits, rfl,
      fun care rest ends => ?_⟩
    · refine Decimal.mk.injEq .. |>.mpr ⟨rfl, together, ?_⟩
      simp only [Option.getD_some, Option.getD_none, List.length_nil]
      omega
    · rw [List.append_nil, List.append_assoc]
      exact numeral_exponent isWhole ends
  next some =>
    refine ⟨⟨negative, (Text.allDigits digits.coefficient).take 1,
      .some ((Text.allDigits digits.coefficient).drop 1),
      .some (digits.exponent + (Text.allDigits digits.coefficient).length - 1)⟩, ?_, allDigits, rfl,
      fun care rest ends => ?_⟩
    · refine Decimal.mk.injEq .. |>.mpr ⟨rfl, together, ?_⟩
      simp only [Option.getD_some, List.length_drop]
      omega
    · rw [List.append_assoc, List.append_assoc, List.cons_append]
      exact numeral_point_exponent isWhole (fun none => some none) areDigitsToo ends

end

/-- Digits with a point denote their number, or a whole number with a zero behind the point. -/
theorem exists_isWritten_withPoint (negative : Bool) {digits : Binary64.Digits} (positive : digits.coefficient ≠ 0) :
    ∃ read, IsWritten (Binary64.withPoint digits)
      (if 0 ≤ digits.exponent then ⟨negative, digits.coefficient * 10 ^ (digits.exponent.toNat + 1), -1⟩
        else ⟨negative, digits.coefficient, digits.exponent⟩) read := by
  have length := Text.length_allDigits_pos digits.coefficient
  unfold Binary64.withPoint Binary64.Digits.positional
  dsimp only
  split
  next whole => exact exists_isWritten_withZeros negative positive
  next fraction =>
    split
    next inside => exact exists_isWritten_around negative positive (by omega) (by omega) (by omega)
    next outside => exact exists_isWritten_behind negative (by omega)

theorem isWhole_allDigits (value : Nat) : IsWhole (Text.allDigits value) where
  nonempty := Text.allDigits_ne_nil value
  areDigits _ := Text.isDigit_of_mem_allDigits
  plain := by
    rcases Nat.eq_zero_or_pos value with rfl | positive
    · exact Or.inl rfl
    · exact Or.inr (Text.head?_allDigits_ne_zero positive.ne')

/-- A whole number that a machine word holds, signed or not. -/
def IsWord (value : Int) : Prop := -(Text.signedLimit : Int) ≤ value ∧ value ≤ Text.wordLimit

theorem numeral_allDigits (care : Care) (negative : Bool) (value : Nat) {rest : List Char}
    (ends : EndsNumber rest) :
    numeral care negative (Text.allDigits value ++ rest) =
      .ok (⟨negative, Text.allDigits value, none, none⟩, rest) := by
  have first : wholePart care (Text.allDigits value ++ rest) = .ok (Text.allDigits value, rest) :=
    wholePart_append (isWhole_allDigits value) fun character same => (ends character same).1
  have second : fractionPart care rest = .ok (none, rest) :=
    fractionPart_none fun character same => (ends character same).2.1
  simp only [numeral, first, second, exponentPart_none ends, bind, Except.bind]

/-- A whole number of a machine word that has been written is read back. -/
theorem readNumber_allDigits {value : Int} (isWord : IsWord value) {rest : List Char}
    (ends : EndsNumber rest) :
    readNumber (decide (value < 0)) (Text.allDigits value.natAbs ++ rest) = .ok (.integer value, rest) := by
  obtain ⟨low, high⟩ := isWord
  have digits := Decimal.digitsValue_allDigits value.natAbs
  have whole : Numeral.toJson ⟨decide (value < 0), Text.allDigits value.natAbs, none, none⟩ =
      .ok (.integer value) := by
    by_cases below : value < 0
    · have back : -(value.natAbs : Int) = value := by omega
      have some : (value.natAbs != 0) = true := by simpa using below.ne
      have small : value.natAbs ≤ Text.signedLimit := by omega
      simp only [Numeral.toJson, digits, below, some, small, back]
      rfl
    · have back : (value.natAbs : Int) = value := by omega
      have small : value.natAbs ≤ Text.wordLimit := by omega
      simp only [Numeral.toJson, digits, below, small, back]
      rfl
  simp only [readNumber, numeral_allDigits .close _ value.natAbs ends, bind, Except.bind, whole]

end DelayGenerator.Json
