/-
This file reads back the smallest parts of written documents: blanks are skipped, and texts lose
their quotes and escapes.
-/

import DelayGenerator.Json.Lexeme
import DelayGenerator.Json.Printer
import DelayGenerator.Proofs.Text.Numeral
import Mathlib.Tactic.IntervalCases

namespace DelayGenerator.Json

/-- Nothing but blanks. -/
def IsSpace (characters : List Char) : Prop := ∀ character ∈ characters, isSpace character = true

theorem isSpace_nil : IsSpace [] := fun _ member => absurd member List.not_mem_nil

/-- Blanks are skipped up to the first other character. -/
theorem skipSpace_append {space : List Char} (isSpace : IsSpace space) {first : Char}
    (other : Json.isSpace first = false) (rest : List Char) :
    skipSpace (space ++ first :: rest) = first :: rest := by
  rw [skipSpace, List.dropWhile_append_of_pos isSpace]
  simp [other]

theorem hexValue?_hexDigit (value : Nat) : hexValue? (hexDigit value) = some (value % 16) := by
  have small := Nat.mod_lt value (show 0 < 16 by decide)
  unfold hexDigit
  generalize value % 16 = rest at small
  interval_cases rest <;> rfl

/-- The letter that stands for a character is read as this character. -/
theorem escape_of_letterFor? {character letter : Char} (stands : letterFor? character = some letter)
    (rest : List Char) : escape (letter :: rest) = .ok (character, rest) := by
  obtain ⟨before, after, same, _⟩ := List.lookup_eq_some_iff.mp stands
  have member : (character, letter) ∈ before ++ (character, letter) :: after := by simp
  rw [← same] at member
  simp only [List.mem_cons, Prod.mk.injEq, List.not_mem_nil, or_false] at member
  rcases member with ⟨rfl, rfl⟩ | ⟨rfl, rfl⟩ | ⟨rfl, rfl⟩ | ⟨rfl, rfl⟩ | ⟨rfl, rfl⟩ | ⟨rfl, rfl⟩ |
    ⟨rfl, rfl⟩ <;> rfl

/-- The code that stands for a control character is read as this character. -/
theorem escape_code {character : Char} (control : character.toNat < 0x20) (rest : List Char) :
    escape ('u' :: '0' :: '0' :: hexDigit (character.toNat / 16) :: hexDigit character.toNat :: rest) =
      .ok (character, rest) := by
  have zero : hexValue? '0' = some 0 := rfl
  have code : ((0 * 16 + 0) * 16 + character.toNat / 16 % 16) * 16 + character.toNat % 16 =
      character.toNat := by
    omega
  have low : (decide (0xDC00 ≤ character.toNat) && decide (character.toNat ≤ 0xDFFF)) = false := by
    simp; omega
  have high : (decide (0xD800 ≤ character.toNat) && decide (character.toNat ≤ 0xDBFF)) = false := by
    simp; omega
  simp only [escape, codedCharacter, hexQuad, zero, hexValue?_hexDigit, bind, Except.bind, code, low, high,
    Bool.false_eq_true, if_false, Char.ofNat_toNat]

/-- A character that begins no escape stands for itself unless it is a control character. -/
theorem textWithin_plain {bound : Nat} {character : Char} {rest : List Char} (noQuote : character ≠ '"')
    (noBackslash : character ≠ '\\') :
    textWithin (bound + 1) (character :: rest) =
      if character.toNat < 0x20 then .error .controlCharacter
      else textWithin bound rest >>= fun (others, rest) => .ok (character :: others, rest) := by
  rw [textWithin]
  · exact noQuote
  · exact noBackslash

/-- What stands for a character in a quoted text is read as this character. -/
theorem textWithin_escaped {bound : Nat} {character : Char} {rest read remaining : List Char}
    (later : textWithin bound rest = .ok (read, remaining)) :
    textWithin (bound + 1) (escaped character ++ rest) = .ok (character :: read, remaining) := by
  unfold escaped
  split
  next letter stands =>
    simp only [List.cons_append, List.nil_append, textWithin, escape_of_letterFor? stands, later, bind,
      Except.bind]
  next none =>
    split
    next control =>
      simp only [List.cons_append, List.nil_append, textWithin, escape_code control, later, bind, Except.bind]
    next plain =>
      have noQuote : character ≠ '"' := by
        rintro rfl
        contradiction
      have noBackslash : character ≠ '\\' := by
        rintro rfl
        contradiction
      rw [List.cons_append, List.nil_append, textWithin_plain noQuote noBackslash, if_neg plain, later]
      rfl

/-- A quoted text is read back behind its opening quote. -/
theorem readText_quoted (text : String) (rest : List Char) :
    readText (text.toList.flatMap escaped ++ '"' :: rest) = .ok (text, rest) := by
  have within (characters : List Char) (bound : Nat) (enough : characters.length < bound) :
      textWithin bound (characters.flatMap escaped ++ '"' :: rest) = .ok (characters, rest) := by
    induction characters generalizing bound with
    | nil =>
        obtain ⟨bound, rfl⟩ := Nat.exists_eq_succ_of_ne_zero (Nat.ne_of_gt enough)
        rfl
    | cons first others inductionHypothesis =>
        obtain ⟨bound, rfl⟩ := Nat.exists_eq_succ_of_ne_zero (Nat.ne_of_gt (Nat.zero_lt_of_lt enough))
        rw [List.flatMap_cons, List.append_assoc]
        exact textWithin_escaped (inductionHypothesis bound (Nat.lt_of_succ_lt_succ enough))
  have some (character : Char) : 0 < (escaped character).length := by
    unfold escaped
    split
    · exact Nat.succ_pos _
    · split <;> exact Nat.succ_pos _
  have long (characters : List Char) : characters.length ≤ (characters.flatMap escaped).length := by
    induction characters with
    | nil => exact Nat.le_refl _
    | cons first others inductionHypothesis =>
        have positive := some first
        rw [List.flatMap_cons, List.length_append, List.length_cons]
        omega
  have enough : text.toList.length < (text.toList.flatMap escaped ++ '"' :: rest).length := by
    have bound := long text.toList
    rw [List.length_append, List.length_cons]
    omega
  simp only [readText, within _ _ enough, bind, Except.bind, String.ofList_toList]

/-- What a step of a reading gives goes into the next one. -/
theorem of_bind {α β : Type} {reading : Except Error α} {next : α → Except Error β} {result : β}
    (read : reading >>= next = .ok result) : ∃ found, reading = .ok found ∧ next found = .ok result := by
  cases reading with
  | error error => contradiction
  | ok found => exact ⟨found, rfl, read⟩

theorem length_skipSpace_le (characters : List Char) : (skipSpace characters).length ≤ characters.length :=
  (List.dropWhile_suffix isSpace).length_le

/-- Behind blanks stands less than the text, if a character is taken. -/
theorem length_lt_of_skipSpace {characters more : List Char} {first : Char}
    (begins : skipSpace characters = first :: more) : more.length < characters.length := by
  have shorter := length_skipSpace_le characters
  rw [begins, List.length_cons] at shorter
  omega

section

variable {care : Care} {characters rest : List Char}

theorem length_expectWord_le {word : List Char} (read : expectWord word characters = .ok rest) :
    rest.length ≤ characters.length := by
  induction word generalizing characters with
  | nil =>
      cases read
      exact Nat.le_refl _
  | cons letter word inductionHypothesis =>
      cases characters with
      | nil => contradiction
      | cons character others =>
          rw [expectWord] at read
          split at read
          · exact Nat.le_succ_of_le (inductionHypothesis read)
          · contradiction

/-- Digits are taken from the front of the text, however closely they are looked at. -/
theorem someDigits_shortens {digits : List Char} (read : someDigits care characters = .ok (digits, rest)) :
    rest.length < characters.length ∧ ∀ other, someDigits other characters = .ok (digits, rest) := by
  rw [someDigits, Decimal.spanDigits, List.span_eq_takeWhile_dropWhile] at read
  split at read
  · contradiction
  next found left some same =>
    cases read
    refine ⟨?_, fun other => ?_⟩
    · cases same
      have positive := List.length_pos_iff.mpr some
      have whole : (characters.takeWhile Char.isDigit ++ characters.dropWhile Char.isDigit).length =
          characters.length := by rw [List.takeWhile_append_dropWhile]
      rw [List.length_append] at whole
      omega
    · rw [someDigits, Decimal.spanDigits, List.span_eq_takeWhile_dropWhile, same]
      cases digits with
      | nil => exact absurd rfl some
      | cons first others => rfl

theorem wholePart_shortens {digits : List Char} (read : wholePart care characters = .ok (digits, rest)) :
    rest.length < characters.length ∧ ∀ other, wholePart other characters = .ok (digits, rest) := by
  obtain ⟨⟨found, left⟩, some, read⟩ := of_bind read
  obtain ⟨shorter, alike⟩ := someDigits_shortens some
  dsimp only at read
  split at read
  · contradiction
  next plain =>
    cases read
    refine ⟨shorter, fun other => ?_⟩
    simp only [wholePart, alike other, bind, Except.bind, if_neg plain]

theorem fractionPart_shortens {fraction : Option (List Char)}
    (read : fractionPart care characters = .ok (fraction, rest)) :
    rest.length ≤ characters.length ∧ ∀ other, fractionPart other characters = .ok (fraction, rest) := by
  unfold fractionPart at read ⊢
  split at read
  next behind =>
    obtain ⟨⟨digits, left⟩, some, same⟩ := of_bind read
    obtain ⟨shorter, alike⟩ := someDigits_shortens some
    cases same
    refine ⟨Nat.le_succ_of_le shorter.le, fun other => ?_⟩
    simp only [alike other, bind, Except.bind]
  next noPoint =>
    cases read
    exact ⟨Nat.le_refl _, fun other => rfl⟩

theorem exponentPart_shortens {exponent : Option Int}
    (read : exponentPart care characters = .ok (exponent, rest)) :
    rest.length ≤ characters.length ∧ ∀ other, exponentPart other characters = .ok (exponent, rest) := by
  unfold exponentPart at read ⊢
  cases characters with
  | nil =>
      cases read
      exact ⟨Nat.le_refl _, fun other => rfl⟩
  | cons mark behind =>
      dsimp only at read ⊢
      split at read
      next marked =>
        split at read
        all_goals
          obtain ⟨⟨digits, left⟩, some, same⟩ := of_bind read
          obtain ⟨shorter, alike⟩ := someDigits_shortens some
          cases same
          dsimp only at shorter
          simp only [if_pos marked, alike, bind, Except.bind, List.length_cons]
          exact ⟨by omega, fun other => trivial⟩
      next unmarked =>
        cases read
        exact ⟨Nat.le_refl _, fun other => by rw [if_neg unmarked]⟩

theorem numeral_shortens {negative : Bool} {found : Numeral}
    (read : numeral care negative characters = .ok (found, rest)) :
    rest.length < characters.length ∧ ∀ other, numeral other negative characters = .ok (found, rest) := by
  obtain ⟨⟨whole, behindWhole⟩, readWhole, read⟩ := of_bind read
  obtain ⟨⟨fraction, behindFraction⟩, readFraction, read⟩ := of_bind read
  obtain ⟨⟨exponent, behindExponent⟩, readExponent, same⟩ := of_bind read
  obtain ⟨shorter, wholeAlike⟩ := wholePart_shortens readWhole
  obtain ⟨shorterToo, fractionAlike⟩ := fractionPart_shortens readFraction
  obtain ⟨shortest, exponentAlike⟩ := exponentPart_shortens readExponent
  cases same
  refine ⟨by omega, fun other => ?_⟩
  simp only [numeral, wholeAlike other, fractionAlike other, exponentAlike other, bind, Except.bind]

end


theorem readNumber_shortens {negative : Bool} {characters rest : List Char} {value : Json}
    (read : readNumber negative characters = .ok (value, rest)) :
    rest.length < characters.length ∧
      ∀ care, ∃ found, numeral care negative characters = .ok (found, rest) := by
  obtain ⟨⟨found, left⟩, number, read⟩ := of_bind read
  obtain ⟨kept, _, same⟩ := of_bind read
  cases same
  obtain ⟨shorter, alike⟩ := numeral_shortens number
  exact ⟨shorter, fun care => ⟨found, alike care⟩⟩

theorem hexQuad_shortens {characters rest : List Char} {code : Nat}
    (read : hexQuad characters = .ok (code, rest)) : rest.length < characters.length := by
  unfold hexQuad at read
  split at read
  · split at read
    · cases read
      simp only [List.length_cons]
      omega
    · contradiction
  · contradiction

/-- What is read behind a backslash is skipped there. A pair of codes is skipped code by code. -/
theorem skipEscape_of_escape {characters rest : List Char} {character : Char}
    (read : escape characters = .ok (character, rest)) :
    ∃ middle, skipEscape characters = .ok middle ∧ middle.length < characters.length ∧
      (middle = rest ∨
        ∃ behind, middle = '\\' :: behind ∧ skipEscape behind = .ok rest ∧ rest.length < behind.length) := by
  unfold escape at read
  split at read
  · contradiction
  next behind =>
    obtain ⟨⟨code, middle⟩, quad, read⟩ := of_bind read
    have shorter := hexQuad_shortens quad
    have skipped : skipEscape ('u' :: behind) = .ok middle := by
      simp only [skipEscape, quad, bind, Except.bind]
    refine ⟨middle, skipped, Nat.lt_succ_of_lt shorter, ?_⟩
    dsimp only at read
    split at read
    · contradiction
    split at read
    · unfold lowSurrogate at read
      split at read
      · contradiction
      · contradiction
      next low =>
        obtain ⟨⟨lowCode, left⟩, lowQuad, read⟩ := of_bind read
        have shorterToo := hexQuad_shortens lowQuad
        dsimp only at read
        split at read
        · obtain ⟨_, rfl⟩ := Prod.mk.inj (Except.ok.inj read)
          have skippedToo : skipEscape ('u' :: low) = .ok left := by
            simp only [skipEscape, lowQuad, bind, Except.bind]
          exact Or.inr ⟨_, rfl, skippedToo, Nat.lt_succ_of_lt shorterToo⟩
        · contradiction
      · contradiction
    · cases read
      exact Or.inl rfl
  next letter behind noCode =>
    split at read
    next stands =>
      obtain ⟨rfl, rfl⟩ := Prod.mk.inj (Except.ok.inj read)
      have skipped : skipEscape (letter :: behind) = .ok behind := by
        simp only [skipEscape, stands]
      exact ⟨behind, skipped, Nat.lt_succ_self _, Or.inl rfl⟩
    · contradiction

theorem escape_shortens {characters rest : List Char} {character : Char}
    (read : escape characters = .ok (character, rest)) : rest.length < characters.length := by
  obtain ⟨middle, _, shorter, rfl | ⟨behind, rfl, _, less⟩⟩ := skipEscape_of_escape read
  · exact shorter
  · exact less.trans (Nat.lt_of_succ_lt shorter)

/-- What is read behind a backslash is skipped with the rest of the text. -/
theorem skipTextWithin_of_escape {behind left rest : List Char} {character : Char}
    (read : escape behind = .ok (character, left))
    (skipped : ∀ enough, left.length ≤ enough → skipTextWithin enough left = .ok rest) {enough : Nat}
    (long : behind.length ≤ enough) : skipTextWithin (enough + 1) ('\\' :: behind) = .ok rest := by
  obtain ⟨middle, first, less, last⟩ := skipEscape_of_escape read
  rw [skipTextWithin, first]
  change skipTextWithin enough middle = .ok rest
  rcases last with rfl | ⟨second, rfl, skippedToo, lessToo⟩
  · exact skipped enough (by omega)
  · rw [List.length_cons] at less
    obtain ⟨enough, rfl⟩ := Nat.exists_eq_add_of_le' (show 1 ≤ enough by omega)
    rw [skipTextWithin, skippedToo]
    exact skipped enough (by omega)

/-- A text that is read is skipped. -/
theorem skipTextWithin_of_textWithin {bound : Nat} {characters read rest : List Char}
    (found : textWithin bound characters = .ok (read, rest)) :
    rest.length < characters.length ∧
      ∀ enough, characters.length ≤ enough → skipTextWithin enough characters = .ok rest := by
  induction bound generalizing characters read with
  | zero => contradiction
  | succ bound inductionHypothesis =>
      cases characters with
      | nil => contradiction
      | cons first behind =>
          have positive (enough : Nat) (long : (first :: behind).length ≤ enough) :
              ∃ less, enough = less + 1 :=
            Nat.exists_eq_add_of_le' (Nat.le_trans (Nat.succ_pos _) long)
          by_cases quote : first = '"'
          · subst quote
            cases found
            refine ⟨Nat.lt_succ_self _, fun enough long => ?_⟩
            obtain ⟨enough, rfl⟩ := positive enough long
            rfl
          by_cases backslash : first = '\\'
          · subst backslash
            obtain ⟨⟨character, left⟩, escaped, found⟩ := of_bind found
            obtain ⟨⟨others, remaining⟩, later, same⟩ := of_bind found
            cases same
            obtain ⟨shorter, skipped⟩ := inductionHypothesis later
            refine ⟨shorter.trans (Nat.lt_succ_of_lt (escape_shortens escaped)), fun enough long => ?_⟩
            obtain ⟨enough, rfl⟩ := positive enough long
            exact skipTextWithin_of_escape escaped skipped (Nat.le_of_succ_le_succ long)
          · rw [textWithin_plain quote backslash] at found
            split at found
            · contradiction
            next plain =>
              obtain ⟨⟨others, remaining⟩, later, same⟩ := of_bind found
              cases same
              obtain ⟨shorter, skipped⟩ := inductionHypothesis later
              refine ⟨Nat.lt_succ_of_lt shorter, fun enough long => ?_⟩
              obtain ⟨enough, rfl⟩ := positive enough long
              rw [skipTextWithin, if_neg plain]
              · exact skipped enough (Nat.le_of_succ_le_succ long)
              · exact quote
              · exact backslash

theorem readText_shortens {characters rest : List Char} {value : String}
    (read : readText characters = .ok (value, rest)) :
    rest.length < characters.length ∧ skipText characters = .ok rest := by
  obtain ⟨⟨found, left⟩, within, same⟩ := of_bind read
  cases same
  obtain ⟨shorter, skipped⟩ := skipTextWithin_of_textWithin within
  exact ⟨shorter, skipped _ (Nat.le_refl _)⟩


theorem colon_shortens {characters rest : List Char} (read : colon characters = .ok rest) :
    rest.length < characters.length := by
  unfold colon at read
  split at read
  · contradiction
  next begins =>
    cases read
    exact length_lt_of_skipSpace begins
  · contradiction

/-- There is no next item exactly before a closing bracket, which closes the list. -/
theorem closeList_of_nextItem? {isFirst : Bool} {characters : List Char}
    (none : nextItem? isFirst characters = .ok none) :
    ∃ more, skipSpace characters = ']' :: more ∧ closeList characters = .ok more := by
  unfold nextItem? at none
  split at none
  · contradiction
  next more begins => exact ⟨more, begins, by simp only [closeList, begins]⟩
  next first more _ begins =>
    split at none
    · cases none
    split at none
    · split at none <;> cases none
    · contradiction

/-- The first item begins with the list, and all others begin behind a comma. -/
theorem nextItem?_some {isFirst : Bool} {characters start : List Char}
    (next : nextItem? isFirst characters = .ok (some start)) :
    (∃ first more, skipSpace characters = first :: more ∧ first ≠ ']') ∧
      if isFirst then start = skipSpace characters
      else ∃ more, skipSpace characters = ',' :: more ∧ start = skipSpace more := by
  unfold nextItem? at next
  split at next
  · contradiction
  · cases next
  next first more noBracket begins =>
    refine ⟨⟨first, more, begins, noBracket⟩, ?_⟩
    split at next
    next isFirst =>
      cases next
      rw [if_pos isFirst, begins]
    next later =>
      rw [if_neg later]
      split at next
      next comma =>
        rw [beq_iff_eq] at comma
        subst comma
        split at next
        · contradiction
        · contradiction
        · cases next
          exact ⟨more, begins, rfl⟩
      · contradiction

/-- There is no next name exactly before a closing brace. -/
theorem nextName?_none {isFirst : Bool} {characters rest : List Char}
    (none : nextName? isFirst characters = .ok (none, rest)) : skipSpace characters = '\x7d' :: rest := by
  unfold nextName? at none
  split at none
  · contradiction
  next more begins =>
    cases none
    exact begins
  · split at none
    · obtain ⟨_, _, same⟩ := of_bind none
      cases same
    · contradiction
  · split at none
    · contradiction
    split at none
    · contradiction
    · obtain ⟨_, _, same⟩ := of_bind none
      cases same
    · contradiction
    · contradiction
  · contradiction

/-- The first name begins with the record, and all others begin behind a comma. -/
theorem nextName?_some {isFirst : Bool} {characters behind : List Char} {name : String}
    (next : nextName? isFirst characters = .ok (some name, behind)) :
    ∃ start more, skipSpace start = '"' :: more ∧ readText more = .ok (name, behind) ∧
      if isFirst then start = characters else skipSpace characters = ',' :: start := by
  unfold nextName? at next
  split at next
  · contradiction
  · cases next
  next more begins =>
    split at next
    next isFirst =>
      obtain ⟨_, read, same⟩ := of_bind next
      cases same
      exact ⟨characters, more, begins, read, by rw [if_pos isFirst]⟩
    · contradiction
  next after begins =>
    split at next
    · contradiction
    next later =>
      split at next
      · contradiction
      next more quote =>
        obtain ⟨_, read, same⟩ := of_bind next
        cases same
        exact ⟨after, more, quote, read, by rw [if_neg later, begins]⟩
      · contradiction
      · contradiction
  · contradiction

end DelayGenerator.Json
