/-
This file shows that only a JSON text is decoded: what no value can be skipped in front of is not
accepted, wherever in the text the mistake is.
-/

import DelayGenerator.Json.Decoder
import DelayGenerator.Proofs.Json.Skip

namespace DelayGenerator.Json

theorem skipEscape_shortens {characters rest : List Char} (read : skipEscape characters = .ok rest) :
    rest.length < characters.length := by
  unfold skipEscape at read
  split at read
  · contradiction
  · obtain ⟨⟨code, behind⟩, quad, same⟩ := of_bind read
    cases same
    exact Nat.lt_succ_of_lt (hexQuad_shortens quad)
  · split at read
    · cases read
      exact Nat.lt_succ_self _
    · contradiction

theorem skipTextWithin_shortens {bound : Nat} {characters rest : List Char}
    (read : skipTextWithin bound characters = .ok rest) : rest.length < characters.length := by
  induction bound generalizing characters with
  | zero => contradiction
  | succ bound inductionHypothesis =>
      cases characters with
      | nil => contradiction
      | cons first behind =>
          by_cases quote : first = '"'
          · subst quote
            cases read
            exact Nat.lt_succ_self _
          by_cases backslash : first = '\\'
          · subst backslash
            obtain ⟨left, escape, later⟩ := of_bind read
            exact (inductionHypothesis later).trans (Nat.lt_succ_of_lt (skipEscape_shortens escape))
          · rw [skipTextWithin] at read
            · split at read
              · contradiction
              · exact Nat.lt_succ_of_lt (inductionHypothesis read)
            · exact quote
            · exact backslash

theorem skipScalar_shortens {characters rest : List Char} (read : skipScalar characters = .ok rest) :
    rest.length < characters.length := by
  unfold skipScalar at read
  split at read
  · contradiction
  · exact Nat.lt_succ_of_le (length_expectWord_le read)
  · exact Nat.lt_succ_of_le (length_expectWord_le read)
  · exact Nat.lt_succ_of_le (length_expectWord_le read)
  · obtain ⟨found, number, same⟩ := of_bind read
    cases same
    exact Nat.lt_succ_of_lt (numeral_shortens number).1
  · exact Nat.lt_succ_of_lt (skipTextWithin_shortens read)
  · split at read
    · obtain ⟨found, number, same⟩ := of_bind read
      cases same
      exact (numeral_shortens number).1
    · contradiction

/-- A name that is skipped begins with a quote. -/
theorem of_skipName {characters rest : List Char} (read : skipName characters = .ok rest) :
    ∃ more, skipSpace characters = '"' :: more ∧ rest.length < more.length := by
  unfold skipName at read
  split at read
  · contradiction
  next more begins =>
    obtain ⟨behind, text, colon⟩ := of_bind read
    exact ⟨more, begins, (colon_shortens colon).trans (skipTextWithin_shortens text)⟩
  · contradiction

section

variable {bound : Nat} {afterPart : Bool} {bracket : Bracket} {enclosing : List Bracket}
  {characters rest : List Char}

/-- A value begins with an opening bracket, or else it is skipped in one step. The bracket does not depend
on what is open outside. -/
theorem skipWithin_value (read : skipWithin (bound + 1) .value enclosing characters = .ok rest) :
    (∃ bracket more, more.length < characters.length ∧ ∀ bound outer,
        skipWithin (bound + 1) .value outer characters =
          skipWithin bound (.inside false) (bracket :: outer) more) ∨
      ∃ behind, Passes characters behind ∧
        (if enclosing.isEmpty then .ok behind else skipWithin bound (.inside true) enclosing behind) =
          .ok rest := by
  cases begins : skipSpace characters with
  | nil => simp [skipWithin, begins, skipScalar, bind, Except.bind] at read
  | cons first more =>
      have shorter := length_lt_of_skipSpace begins
      by_cases isList : first = '['
      · subst isList
        exact Or.inl ⟨.list, more, shorter, fun bound outer => by simp only [skipWithin, begins]⟩
      by_cases isRecord : first = '\x7b'
      · subst isRecord
        exact Or.inl ⟨.record, more, shorter, fun bound outer => by simp only [skipWithin, begins]⟩
      have step : skipWithin (bound + 1) .value enclosing characters =
          (skipScalar (first :: more) >>= fun behind => if enclosing.isEmpty then .ok behind
            else skipWithin bound (.inside true) enclosing behind) := by
        simp only [skipWithin, begins]
        split <;> simp_all
      rw [step] at read
      obtain ⟨behind, scalar, later⟩ := of_bind read
      have less := Nat.le_of_lt_succ (skipScalar_shortens scalar)
      exact Or.inr ⟨behind, .scalar begins isList isRecord scalar less, later⟩

/-- Inside brackets there is the closing one or another part. Which of them does not depend on what
is open outside. -/
theorem skipWithin_inside
    (read : skipWithin (bound + 1) (.inside afterPart) (bracket :: enclosing) characters = .ok rest) :
    (∃ more, more.length < characters.length ∧ ∀ bound outer,
        skipWithin (bound + 1) (.inside afterPart) (bracket :: outer) characters =
          skipWithin bound (.inside true) outer more) ∨
      ∃ start, start.length + afterPart.toNat ≤ characters.length ∧ ∀ bound outer,
        skipWithin (bound + 1) (.inside afterPart) (bracket :: outer) characters =
          skipWithin bound .value (bracket :: outer) start := by
  cases begins : skipSpace characters with
  | nil => cases bracket <;> simp [skipWithin, begins] at read
  | cons first more =>
      have shorter := length_lt_of_skipSpace begins
      have nameless {start : List Char} (read : (skipName start >>= fun behind =>
          skipWithin bound .value (.record :: enclosing) behind) = .ok rest) :
          ∃ behind left, skipName start = .ok behind ∧ skipSpace start = '"' :: left ∧
            behind.length < start.length := by
        obtain ⟨behind, name, _⟩ := of_bind read
        obtain ⟨left, quote, less⟩ := of_skipName name
        exact ⟨behind, left, name, quote, less.trans (length_lt_of_skipSpace quote)⟩
      cases bracket with
      | list =>
          by_cases closing : first = ']'
          · subst closing
            exact Or.inl ⟨more, shorter, fun bound outer => skipWithin_bracket afterPart begins⟩
          cases afterPart with
          | false =>
              exact Or.inr ⟨first :: more, shorter, fun bound outer => skipWithin_firstItem begins closing⟩
          | true =>
              by_cases comma : first = ','
              · subst comma
                exact Or.inr ⟨more, shorter, fun bound outer => skipWithin_nextItem begins⟩
              · simp [skipWithin, begins, closing, comma] at read
      | record =>
          by_cases closing : first = '\x7d'
          · subst closing
            exact Or.inl ⟨more, shorter, fun bound outer => skipWithin_brace afterPart begins⟩
          cases afterPart with
          | false =>
              simp [skipWithin, begins, closing] at read
              obtain ⟨behind, left, name, quote, less⟩ := nameless read
              -- The blanks in front have been skipped already.
              rw [← begins, skipSpace_skipSpace, begins] at quote
              cases quote
              refine Or.inr ⟨behind, ?_, fun bound outer => skipWithin_firstMember begins name⟩
              exact less.le.trans shorter
          | true =>
              by_cases comma : first = ','
              · subst comma
                simp [skipWithin, begins] at read
                obtain ⟨behind, left, name, quote, less⟩ := nameless read
                refine Or.inr ⟨behind, ?_, fun bound outer => skipWithin_nextMember begins name⟩
                rw [Bool.toNat_true]
                omega
              · simp [skipWithin, begins, closing, comma] at read

end

/-- The part of a place that has no characters of its own: a first part is looked for once more. -/
def Place.surplus : Place → Nat
  | .value => 0
  | .inside afterPart => (!afterPart).toNat

/-- What stands in front of the rest is skipped from a place on, up to the end of some brackets, whatever
brackets are open around these. -/
structure PassesWithin (place : Place) (enclosing : List Bracket) (characters rest : List Char) : Prop where
  le : rest.length ≤ characters.length
  lt : place = .value → rest.length < characters.length
  skipWithin : ∀ {least bound : Nat} {outer : List Bracket} {final : List Char},
    Closes least outer rest final → least + 2 * characters.length + place.surplus ≤ bound →
      skipWithin bound place (enclosing ++ outer) characters = .ok final

namespace PassesWithin

variable {afterPart : Bool} {bracket : Bracket} {enclosing : List Bracket}
  {characters behind more start rest : List Char}

/-- Behind a complete part nothing is left to skip. -/
theorem done (rest : List Char) : PassesWithin (.inside true) [] rest rest where
  le := Nat.le_refl _
  lt := nofun
  skipWithin closes enough := closes _ enough

theorem alone (passes : Passes characters rest) : PassesWithin .value [] characters rest where
  le := passes.shortens.le
  lt _ := passes.shortens
  skipWithin := passes.skipWithin

theorem value (passes : Passes characters behind) (later : PassesWithin (.inside true) enclosing behind rest) :
    PassesWithin .value enclosing characters rest where
  le := later.le.trans passes.shortens.le
  lt _ := later.le.trans_lt passes.shortens
  skipWithin closes := passes.skipWithin fun _ enough => later.skipWithin closes enough

/-- A list or a record is skipped behind its opening bracket. -/
theorem opening (shorter : more.length < characters.length)
    (step : ∀ bound outer, Json.skipWithin (bound + 1) .value outer characters =
      Json.skipWithin bound (.inside false) (bracket :: outer) more)
    (inside : PassesWithin (.inside false) (bracket :: enclosing) more rest) :
    PassesWithin .value enclosing characters rest where
  le := inside.le.trans shorter.le
  lt _ := inside.le.trans_lt shorter
  skipWithin {least bound outer final} closes enough := by
    obtain ⟨bound, rfl⟩ := Nat.exists_eq_add_of_le' (show 1 ≤ bound by omega)
    rw [step]
    exact inside.skipWithin closes (by simp only [Place.surplus, Bool.not_false, Bool.toNat_true]; omega)

theorem closing (shorter : more.length < characters.length)
    (step : ∀ bound outer, Json.skipWithin (bound + 1) (.inside afterPart) (bracket :: outer) characters =
      Json.skipWithin bound (.inside true) outer more)
    (later : PassesWithin (.inside true) enclosing more rest) :
    PassesWithin (.inside afterPart) (bracket :: enclosing) characters rest where
  le := later.le.trans shorter.le
  lt := nofun
  skipWithin {least bound outer final} closes enough := by
    obtain ⟨bound, rfl⟩ := Nat.exists_eq_add_of_le' (show 1 ≤ bound by omega)
    rw [List.cons_append, step]
    exact later.skipWithin closes (by simp only [Place.surplus] at enough ⊢; simp; omega)

theorem part (shorter : start.length + afterPart.toNat ≤ characters.length)
    (step : ∀ bound outer, Json.skipWithin (bound + 1) (.inside afterPart) (bracket :: outer) characters =
      Json.skipWithin bound .value (bracket :: outer) start)
    (later : PassesWithin .value (bracket :: enclosing) start rest) :
    PassesWithin (.inside afterPart) (bracket :: enclosing) characters rest where
  le := by
    have less := later.lt rfl
    omega
  lt := nofun
  skipWithin {least bound outer final} closes enough := by
    simp only [Place.surplus] at enough
    have cost : (!afterPart).toNat + afterPart.toNat = 1 := by cases afterPart <;> rfl
    have less := later.lt rfl
    obtain ⟨bound, rfl⟩ := Nat.exists_eq_add_of_le' (show 1 ≤ bound by omega)
    rw [List.cons_append, step]
    exact later.skipWithin closes (by simp only [Place.surplus]; omega)

end PassesWithin

/-- What is skipped up to the end of some brackets is skipped with other brackets around them too. -/
theorem passesWithin_of_skipWithin {bound : Nat} {place : Place} {enclosing : List Bracket}
    {characters rest : List Char} (read : skipWithin bound place enclosing characters = .ok rest)
    (complete : enclosing = [] → place ≠ .inside false) : PassesWithin place enclosing characters rest := by
  induction bound generalizing place enclosing characters with
  | zero => contradiction
  | succ bound inductionHypothesis =>
      cases place with
      | value =>
          rcases skipWithin_value read with ⟨bracket, more, shorter, step⟩ | ⟨behind, passes, later⟩
          · rw [step] at read
            exact .opening shorter step (inductionHypothesis read (by simp))
          · cases enclosing with
            | nil =>
                cases later
                exact .alone passes
            | cons bracket enclosing => exact .value passes (inductionHypothesis later (by simp))
      | inside afterPart =>
          cases enclosing with
          | nil =>
              cases read
              cases afterPart with
              | false => exact absurd rfl (complete rfl)
              | true => exact .done _
          | cons bracket enclosing =>
              rcases skipWithin_inside read with ⟨more, shorter, step⟩ | ⟨start, shorter, step⟩
              · rw [step] at read
                exact .closing shorter step (inductionHypothesis read (by simp))
              · rw [step] at read
                exact .part shorter step (inductionHypothesis read (by simp))

/-- What is skipped by itself is skipped in any place. -/
theorem passes_of_skip {characters rest : List Char} (read : skip characters = .ok rest) :
    Passes characters rest := by
  have passes := passesWithin_of_skipWithin read nofun
  exact ⟨passes.lt rfl, passes.skipWithin⟩

theorem Passes.of_skipSpace {characters rest : List Char} (passes : Passes (skipSpace characters) rest) :
    Passes characters rest where
  shortens := passes.shortens.trans_le (length_skipSpace_le characters)
  skipWithin closes enough := by
    have less := length_skipSpace_le characters
    rw [← skipWithin_skipSpace]
    exact passes.skipWithin closes (by omega)

/-- A value stands in the text, and nothing but blanks behind it. The value is not looked at closely:
its depth and the size of its numbers do not matter. -/
def IsWellFormed (text : String) : Prop := ∃ rest, skip text.toList = .ok rest ∧ skipSpace rest = []

/-- The decoder reads what can be skipped as a value. -/
def Decoder.IsPassing {α : Type} (decoder : Decoder α) : Prop :=
  ∀ ⦃depth : Nat⦄ ⦃characters rest : List Char⦄ ⦃result : α⦄,
    decoder.fromText depth characters = .ok (result, rest) → Passes characters rest

def Field.IsPassing {ρ : Type} (field : Field ρ) : Prop :=
  ∀ ⦃depth : Nat⦄ ⦃characters rest : List Char⦄ ⦃form result : ρ⦄,
    field.fromText depth characters form = .ok (result, rest) → Passes characters rest

theorem Field.IsPassing.required {ρ : Type} {field : Field ρ} (isPassing : field.IsPassing) :
    field.required.IsPassing :=
  isPassing

theorem Field.IsPassing.requiredInList {ρ : Type} {field : Field ρ} (isPassing : field.IsPassing) :
    field.requiredInList.IsPassing :=
  isPassing

namespace Decoder

theorem isPassing_value : value.IsPassing := fun _ _ _ _ read => (read_eq_ok_iff.mp read).passes

theorem isPassing_text : text.IsPassing := by
  intro depth characters rest result read
  simp only [text] at read
  split at read
  next more begins => exact (@Spells.text depth _ _ _ _ begins read).passes
  · contradiction

theorem isPassing_bool : bool.IsPassing := by
  intro depth characters rest result read
  simp only [bool] at read
  split at read
  next more begins =>
    obtain ⟨behind, word, same⟩ := of_bind read
    cases same
    exact (@Spells.yes depth _ _ _ begins word).passes
  next more begins =>
    obtain ⟨behind, word, same⟩ := of_bind read
    cases same
    exact (@Spells.no depth _ _ _ begins word).passes
  · contradiction

variable {α : Type} {decoder : Decoder α} (isPassing : decoder.IsPassing)
include isPassing

theorem IsPassing.refine {β : Type} (accept : α → Except Error β) : (decoder.refine accept).IsPassing := by
  intro depth characters rest result read
  obtain ⟨⟨value, behind⟩, first, next⟩ := of_bind read
  obtain ⟨_, _, same⟩ := of_bind next
  cases same
  exact isPassing first

theorem IsPassing.option : decoder.option.IsPassing := by
  intro depth characters rest result read
  simp only [Decoder.option] at read
  split at read
  next more begins =>
    obtain ⟨behind, word, same⟩ := of_bind read
    cases same
    exact (@Spells.null depth _ _ _ begins word).passes
  · obtain ⟨⟨value, behind⟩, first, same⟩ := of_bind read
    cases same
    exact (isPassing first).of_skipSpace

theorem IsPassing.items {depth bound : Nat} {isFirst : Bool} {characters rest : List Char} {results : List α}
    (read : decoder.itemsFromText depth bound isFirst characters = .ok (results, rest)) :
    PassesItems isFirst characters rest := by
  induction bound generalizing isFirst characters results with
  | zero => contradiction
  | succ bound inductionHypothesis =>
      obtain ⟨next, start, read⟩ := of_bind read
      cases next with
      | none =>
          obtain ⟨_, closed, same⟩ := of_bind read
          cases same
          exact .close start closed
      | some next =>
          obtain ⟨⟨item, more⟩, one, read⟩ := of_bind read
          obtain ⟨⟨others, last⟩, later, same⟩ := of_bind read
          cases same
          exact .item start (isPassing one) (inductionHypothesis later)

theorem IsPassing.list : decoder.list.IsPassing := by
  intro depth characters rest result read
  simp only [Decoder.list] at read
  split at read
  next more begins =>
    split at read
    · contradiction
    · exact (isPassing.items read).list begins
  · contradiction

theorem IsPassing.field {ρ : Type} (name : String) (put : α → ρ → ρ) : (Field.of name decoder put).IsPassing := by
  intro depth characters rest form result read
  obtain ⟨⟨value, behind⟩, first, same⟩ := of_bind read
  cases same
  exact isPassing first

/-- Only well-formed texts are accepted. -/
theorem IsPassing.isWellFormed {text : String} {result : α} (decoded : decoder.decodeText text = .ok result) :
    IsWellFormed text := by
  obtain ⟨⟨value, rest⟩, read, ends⟩ := of_bind decoded
  dsimp only at ends
  split at ends
  next blank => exact ⟨rest, (isPassing read).skip, blank⟩
  · contradiction

end Decoder

namespace Layout

variable {ρ : Type} {layout : Layout ρ}

theorem passesMembers (arePassing : ∀ field ∈ layout.fields, field.IsPassing) {depth bound : Nat}
    {isFirst : Bool} {seen : List String} {characters rest : List Char} {form result : ρ}
    (read : layout.membersFromText depth bound isFirst seen characters form = .ok (result, rest)) :
    PassesMembers isFirst characters rest := by
  induction bound generalizing isFirst seen characters form with
  | zero => contradiction
  | succ bound inductionHypothesis =>
      obtain ⟨⟨name, behind⟩, next, read⟩ := of_bind read
      cases name with
      | none =>
          obtain ⟨_, _, same⟩ := of_bind read
          cases same
          exact .close next
      | some name =>
          dsimp only at read
          split at read
          next =>
            obtain ⟨start, colon, read⟩ := of_bind read
            obtain ⟨more, skipped, read⟩ := of_bind read
            exact .member next colon (passes_of_skip skipped) (inductionHypothesis read)
          next field known =>
            split at read
            · contradiction
            · obtain ⟨start, colon, read⟩ := of_bind read
              obtain ⟨⟨middle, more⟩, one, read⟩ := of_bind read
              have isPassing := arePassing field (List.mem_of_find?_eq_some known)
              exact .member next colon (isPassing one) (inductionHypothesis read)

theorem passesItems {fields : List (Field ρ)} (arePassing : ∀ field ∈ fields, field.IsPassing)
    {depth index : Nat} {characters rest : List Char} {form result : ρ}
    (read : layout.itemsFromText depth fields index characters form = .ok (result, rest)) :
    PassesItems (index == 0) characters rest := by
  induction fields generalizing index characters form with
  | nil =>
      obtain ⟨_, closed, same⟩ := of_bind read
      cases same
      obtain ⟨more, bracket⟩ : ∃ more, skipSpace characters = ']' :: more := by
        unfold closeList at closed
        split at closed
        · contradiction
        next more begins => exact ⟨more, begins⟩
        · split at closed <;> contradiction
        · contradiction
      exact .close (by simp only [nextItem?, bracket]) closed
  | cons field fields inductionHypothesis =>
      have isPassing := arePassing field List.mem_cons_self
      have arePassing := fun other member => arePassing other (List.mem_cons_of_mem field member)
      obtain ⟨next, start, read⟩ := of_bind read
      cases next with
      | none =>
          dsimp only at read
          split at read
          · have later := inductionHypothesis arePassing read
            cases later with
            | close none closed => exact .close start closed
            | item another value later =>
                obtain ⟨more, bracket, _⟩ := closeList_of_nextItem? start
                obtain ⟨⟨first, behind, begins, other⟩, _⟩ := nextItem?_some another
                rw [bracket] at begins
                cases begins
                exact absurd rfl other
          · contradiction
      | some next =>
          obtain ⟨⟨middle, more⟩, one, read⟩ := of_bind read
          exact .item start (isPassing one) (inductionHypothesis arePassing read)

theorem isPassing_decoder (arePassing : ∀ field ∈ layout.fields, field.IsPassing) :
    layout.decoder.IsPassing := by
  intro depth characters rest result read
  simp only [decoder] at read
  split at read
  next more begins =>
    split at read
    · contradiction
    · exact (passesItems arePassing read).list begins
  next more begins =>
    split at read
    · contradiction
    · exact (passesMembers arePassing read).record begins
  · contradiction

end Layout

end DelayGenerator.Json
