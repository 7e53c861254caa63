/-
This file shows what a text is that begins in a given way, and what is left of a text without what stands around it.
-/

import DelayGenerator.Text.Blank
import Mathlib.Data.List.TakeWhile

namespace DelayGenerator.Text

theorem isPrefixOf?_eq_some {α : Type} [BEq α] [LawfulBEq α] {beginning items rest : List α} :
    beginning.isPrefixOf? items = some rest ↔ items = beginning ++ rest := by
  induction beginning generalizing items with
  | nil =>
      change some items = some rest ↔ items = rest
      rw [Option.some_inj]
  | cons first others inductionHypothesis =>
      cases items with
      | nil => constructor <;> intro given <;> cases given
      | cons item items =>
          change (if first == item then others.isPrefixOf? items else none) = some rest ↔ _
          rw [List.cons_append, List.cons.injEq, ← inductionHypothesis]
          by_cases same : first = item
          · simp [same]
          · simp [same, Ne.symm same]

theorem after?_eq_some {beginning text rest : String} :
    after? beginning text = some rest ↔ text = beginning ++ rest := by
  rw [after?, Option.map_eq_some_iff, ← String.toList_inj, String.toList_append]
  constructor
  · rintro ⟨characters, begins, rfl⟩
    rw [String.toList_ofList]
    exact isPrefixOf?_eq_some.mp begins
  · intro parts
    exact ⟨rest.toList, isPrefixOf?_eq_some.mpr parts, String.ofList_toList⟩

theorem after?_append (beginning rest : String) : after? beginning (beginning ++ rest) = some rest :=
  after?_eq_some.mpr rfl

theorem after?_eq_none {beginning text : String} :
    after? beginning text = none ↔ ∀ rest, text ≠ beginning ++ rest := by
  rw [Option.eq_none_iff_forall_ne_some]
  exact forall_congr' fun rest => not_congr after?_eq_some

theorem dropTrailing_append {α : Type} {test : α → Bool} (first : List α) {second : List α}
    (kept : dropTrailing test second = second) (some : second ≠ []) :
    dropTrailing test (first ++ second) = first ++ second := by
  induction first with
  | nil => exact kept
  | cons item rest inductionHypothesis =>
      have more : rest ++ second ≠ [] := List.append_ne_nil_of_right_ne_nil rest some
      rw [List.cons_append, dropTrailing, inductionHypothesis]
      split
      · contradiction
      · rfl

/-- A list in which nothing satisfies the test loses nothing. -/
theorem dropTrailing_of_forall {α : Type} {test : α → Bool} {items : List α}
    (kept : ∀ item ∈ items, test item = false) : dropTrailing test items = items := by
  induction items with
  | nil => rfl
  | cons item rest inductionHypothesis =>
      rw [dropTrailing, inductionHypothesis fun other member => kept other (List.mem_cons_of_mem item member)]
      cases rest with
      | nil => simp [kept item List.mem_cons_self]
      | cons next more => rfl

theorem isBlank_eq_false {character : Char} (low : 0x21 ≤ character.toNat) (high : character.toNat ≤ 0x7E) :
    isBlank character = false := by
  simp only [isBlank, blankRanges, List.any_cons, List.any_nil, Bool.or_false, Bool.or_eq_false_iff,
    Bool.and_eq_false_iff, decide_eq_false_iff_not]
  omega

/-- Decimal digits are visible. -/
theorem visible_of_isDigit {character : Char} (digit : character.isDigit = true) :
    0x21 ≤ character.toNat ∧ character.toNat ≤ 0x7E := by
  obtain ⟨low, high⟩ : 0x30 ≤ character.toNat ∧ character.toNat ≤ 0x39 := Char.isDigit_iff_toNat.mp digit
  omega

/-- The characters that stand in a reply line, but for the space. -/
def IsVisible (text : String) : Prop :=
  ∀ character ∈ text.toList, 0x21 ≤ character.toNat ∧ character.toNat ≤ 0x7E

instance (text : String) : Decidable (IsVisible text) :=
  List.decidableBAll (fun character : Char => 0x21 ≤ character.toNat ∧ character.toNat ≤ 0x7E) _

theorem isVisible_ofList {characters : List Char} : IsVisible (String.ofList characters) ↔
    ∀ character ∈ characters, 0x21 ≤ character.toNat ∧ character.toNat ≤ 0x7E := by
  rw [IsVisible, String.toList_ofList]

theorem IsVisible.beq_space {text : String} (visible : IsVisible text) :
    ∀ character ∈ text.toList, (character == ' ') = false := by
  intro character member
  refine beq_false_of_ne fun same => ?_
  have low := (visible character member).1
  rw [same] at low
  exact absurd low (by decide)

/-- A text without blanks is not trimmed. -/
theorem IsVisible.trim_eq {text : String} (visible : IsVisible text) : trim text = text := by
  have kept : ∀ character ∈ text.toList, isBlank character = false := fun character member =>
    isBlank_eq_false (visible character member).1 (visible character member).2
  have begins : text.toList.dropWhile isBlank = text.toList := by
    cases characters : text.toList with
    | nil => rfl
    | cons first rest => simp [kept first (by simp [characters])]
  rw [trim, begins, dropTrailing_of_forall kept, String.ofList_toList]

section

variable {α : Type} {test : α → Bool} {last : List α}

theorem dropTrailing_eq_nil (dropped : ∀ item ∈ last, test item = true) : dropTrailing test last = [] := by
  induction last with
  | nil => rfl
  | cons item rest inductionHypothesis =>
      rw [dropTrailing, inductionHypothesis fun other member => dropped other (List.mem_cons_of_mem item member)]
      exact if_pos (dropped item List.mem_cons_self)

/-- What is dropped at the end does not matter. -/
theorem dropTrailing_append_of_forall (dropped : ∀ item ∈ last, test item = true) (items : List α) :
    dropTrailing test (items ++ last) = dropTrailing test items := by
  induction items with
  | nil => exact dropTrailing_eq_nil dropped
  | cons item rest inductionHypothesis => rw [List.cons_append, dropTrailing, dropTrailing, inductionHypothesis]

end

theorem trim_of_blank {text : String} (blank : ∀ character ∈ text.toList, isBlank character = true) :
    trim text = "" := by
  rw [trim, List.dropWhile_eq_nil_iff.mpr blank]
  rfl

/-- The text is another one with blanks around it, or this text itself. -/
def Surrounds (core text : String) : Prop :=
  ∃ before after : List Char, (∀ character ∈ before, isBlank character = true) ∧
    (∀ character ∈ after, isBlank character = true) ∧
    text = String.ofList before ++ core ++ String.ofList after

/-- Blanks around a text do not matter to what is left of it. -/
theorem Surrounds.trim_eq {core text : String} (surrounds : Surrounds core text) : trim text = trim core := by
  obtain ⟨before, after, blank, blankToo, rfl⟩ := surrounds
  have parts : (String.ofList before ++ core ++ String.ofList after).toList = before ++ (core.toList ++ after) := by
    rw [String.toList_append, String.toList_append, String.toList_ofList, String.toList_ofList, List.append_assoc]
  rw [trim, parts, List.dropWhile_append_of_pos blank, List.dropWhile_append, trim]
  split
  next none =>
    rw [List.isEmpty_iff] at none
    rw [none, List.dropWhile_eq_nil_iff.mpr blankToo]
  next => rw [dropTrailing_append_of_forall blankToo]

end DelayGenerator.Text
