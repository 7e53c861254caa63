/-
This file says how a word may be spelled in small and in capital letters, and finds it again in each of its spellings.
-/

import DelayGenerator.Proofs.Text.Blank
import Mathlib.Data.List.Forall2

namespace DelayGenerator.Text

/-- The characters are the letters, each small or capital. -/
def SpellsLetters (letters characters : List Char) : Prop :=
  List.Forall₂ (fun letter character => character = letter ∨ character = letter.toUpper) letters characters

instance (letters characters : List Char) : Decidable (SpellsLetters letters characters) :=
  inferInstanceAs (Decidable (List.Forall₂ _ letters characters))

/-- A small letter, or a digit, that is visible in both cases. -/
def IsPlainLetter (letter : Char) : Prop :=
  (letter.toLower = letter ∧ 0x21 ≤ letter.toNat ∧ letter.toNat ≤ 0x7E) ∧
    letter.toUpper.toLower = letter ∧ 0x21 ≤ letter.toUpper.toNat ∧ letter.toUpper.toNat ≤ 0x7E

instance (letter : Char) : Decidable (IsPlainLetter letter) := inferInstanceAs (Decidable (_ ∧ _))

def ArePlain (letters : List Char) : Prop := ∀ letter ∈ letters, IsPlainLetter letter

instance (letters : List Char) : Decidable (ArePlain letters) := List.decidableBAll IsPlainLetter letters

theorem IsPlainLetter.of_eq_or_eq {letter character : Char} (plain : IsPlainLetter letter)
    (spells : character = letter ∨ character = letter.toUpper) :
    character.toLower = letter ∧ 0x21 ≤ character.toNat ∧ character.toNat ≤ 0x7E := by
  rcases spells with rfl | rfl
  · exact plain.1
  · exact plain.2

theorem SpellsLetters.map_toLower {letters characters : List Char} (spells : SpellsLetters letters characters)
    (plain : ArePlain letters) : characters.map Char.toLower = letters ∧
      ∀ character ∈ characters, 0x21 ≤ character.toNat ∧ character.toNat ≤ 0x7E := by
  induction spells with
  | nil => exact ⟨rfl, by simp⟩
  | cons first _ inductionHypothesis =>
      obtain ⟨plainFirst, plainLater⟩ := List.forall_mem_cons.mp plain
      obtain ⟨same, visible⟩ := inductionHypothesis plainLater
      obtain ⟨small, visibleFirst⟩ := plainFirst.of_eq_or_eq first
      rw [List.map_cons, small, same]
      exact ⟨rfl, List.forall_mem_cons.mpr ⟨visibleFirst, visible⟩⟩

/-- The word in any letter case, with blanks around it or none. -/
def SpellsWord (word text : String) : Prop :=
  ∃ written, Surrounds written text ∧ SpellsLetters word.toList written.toList

/-- A plain word is found in each of its spellings. -/
theorem SpellsWord.lowercase_trim {word text : String} (spells : SpellsWord word text)
    (plain : ArePlain word.toList) : lowercase (trim text) = word := by
  obtain ⟨written, surrounds, letters⟩ := spells
  obtain ⟨same, visible⟩ := letters.map_toLower plain
  rw [surrounds.trim_eq, IsVisible.trim_eq visible, lowercase, same, String.ofList_toList]

end DelayGenerator.Text
