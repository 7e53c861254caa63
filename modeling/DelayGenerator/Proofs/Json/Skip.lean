/-
This file shows that what a text spells is skipped there: a value that is not wanted costs exactly
its own text.
-/

import DelayGenerator.Proofs.Json.Grammar

namespace DelayGenerator.Json

-- All lemmas below unfold this function, so its equations are made here once.
attribute [local simp] skipWithin

/-- Behind a complete part the enclosing brackets are closed, and this is left. Each character pays
for two steps. -/
def Closes (least : Nat) (enclosing : List Bracket) (rest final : List Char) : Prop :=
  ∀ bound, least + 2 * rest.length ≤ bound → skipWithin bound (.inside true) enclosing rest = .ok final

theorem closes_nil (rest : List Char) : Closes 1 [] rest rest := by
  intro bound enough
  obtain ⟨bound, rfl⟩ := Nat.exists_eq_add_of_le' (Nat.le_trans (Nat.le_add_right 1 _) enough)
  rw [skipWithin]

/-- A value that is no list and no record is skipped in one step. -/
theorem skipWithin_scalar {least bound : Nat} {enclosing : List Bracket} {first : Char}
    {characters more rest final : List Char} (closes : Closes least enclosing rest final)
    (enough : least + 2 * characters.length ≤ bound)
    (begins : skipSpace characters = first :: more) (noList : first ≠ '[') (noRecord : first ≠ '\x7b')
    (skipped : skipScalar (first :: more) = .ok rest) (shorter : rest.length ≤ more.length) :
    skipWithin bound .value enclosing characters = .ok final := by
  have some := length_lt_of_skipSpace begins
  obtain ⟨bound, rfl⟩ := Nat.exists_eq_add_of_le' (show 1 ≤ bound by omega)
  have step : skipWithin (bound + 1) .value enclosing characters =
      if enclosing.isEmpty then .ok rest else skipWithin bound (.inside true) enclosing rest := by
    rw [skipWithin, begins]
    split
    next same =>
      cases same
      contradiction
    next same =>
      cases same
      contradiction
    · rw [skipped]
      rfl
  rw [step]
  cases enclosing with
  | nil =>
      have same := closes (least + 2 * rest.length + 1) (Nat.le_succ _)
      rw [skipWithin] at same
      exact same
  | cons bracket outer => exact closes bound (by omega)

theorem skipScalar_digits {first : Char} {more rest : List Char} {value : Json} (digit : first.isDigit = true)
    (read : readNumber false (first :: more) = .ok (value, rest)) :
    skipScalar (first :: more) = .ok rest := by
  obtain ⟨found, same⟩ := (readNumber_shortens read).2 .loose
  have step : skipScalar (first :: more) =
      (numeral .loose false (first :: more)).bind fun found => .ok found.2 := by
    unfold skipScalar
    split <;> simp_all [bind]
  rw [step, same]
  rfl

theorem skipScalar_minus {more rest : List Char} {value : Json}
    (read : readNumber true more = .ok (value, rest)) :
    skipScalar ('-' :: more) = .ok rest := by
  obtain ⟨found, same⟩ := (readNumber_shortens read).2 .loose
  simp only [skipScalar, same, bind, Except.bind]

section

variable {bound : Nat} {outer : List Bracket} {characters more : List Char}

theorem skipWithin_bracket (afterPart : Bool) (begins : skipSpace characters = ']' :: more) :
    skipWithin (bound + 1) (.inside afterPart) (.list :: outer) characters =
      skipWithin bound (.inside true) outer more := by
  simp only [skipWithin, begins]

theorem skipWithin_brace (afterPart : Bool) (begins : skipSpace characters = '\x7d' :: more) :
    skipWithin (bound + 1) (.inside afterPart) (.record :: outer) characters =
      skipWithin bound (.inside true) outer more := by
  simp only [skipWithin, begins]

theorem skipWithin_firstItem {first : Char} (begins : skipSpace characters = first :: more)
    (other : first ≠ ']') :
    skipWithin (bound + 1) (.inside false) (.list :: outer) characters =
      skipWithin bound .value (.list :: outer) (first :: more) := by
  simp only [skipWithin, begins]
  split <;> simp_all

theorem skipWithin_nextItem (begins : skipSpace characters = ',' :: more) :
    skipWithin (bound + 1) (.inside true) (.list :: outer) characters =
      skipWithin bound .value (.list :: outer) more := by
  simp only [skipWithin, begins]
  rfl

theorem skipWithin_firstMember {behind : List Char} (begins : skipSpace characters = '"' :: more)
    (name : skipName ('"' :: more) = .ok behind) :
    skipWithin (bound + 1) (.inside false) (.record :: outer) characters =
      skipWithin bound .value (.record :: outer) behind := by
  simp only [skipWithin, begins]
  simp [name, bind, Except.bind]

theorem skipWithin_nextMember {behind : List Char} (begins : skipSpace characters = ',' :: more)
    (name : skipName more = .ok behind) :
    skipWithin (bound + 1) (.inside true) (.record :: outer) characters =
      skipWithin bound .value (.record :: outer) behind := by
  simp only [skipWithin, begins]
  simp [name, bind, Except.bind]

end

theorem skipWithin_skipSpace (bound : Nat) (enclosing : List Bracket) (characters : List Char) :
    skipWithin bound .value enclosing (skipSpace characters) =
      skipWithin bound .value enclosing characters := by
  cases bound with
  | zero => rfl
  | succ bound => simp only [skipWithin, skipSpace_skipSpace]

/-- The name of a member is skipped as it is read. -/
theorem skipName_of_readText {characters more behind start : List Char} {name : String}
    (quote : skipSpace characters = '"' :: more) (read : readText more = .ok (name, behind))
    (colon : colon behind = .ok start) : skipName characters = .ok start := by
  simp only [skipName, quote, (readText_shortens read).2, bind, Except.bind, colon]

/-- What stands in front of the rest is skipped as a value, whatever brackets are open around it. -/
structure Passes (characters rest : List Char) : Prop where
  shortens : rest.length < characters.length
  skipWithin : ∀ {least bound : Nat} {enclosing : List Bracket} {final : List Char},
    Closes least enclosing rest final → least + 2 * characters.length ≤ bound →
      skipWithin bound .value enclosing characters = .ok final

/-- A value that is no list and no record is skipped in any place. -/
theorem Passes.scalar {characters more rest : List Char} {first : Char}
    (begins : skipSpace characters = first :: more) (noList : first ≠ '[') (noRecord : first ≠ '\x7b')
    (skipped : skipScalar (first :: more) = .ok rest) (shorter : rest.length ≤ more.length) :
    Passes characters rest where
  shortens := Nat.lt_of_le_of_lt shorter (length_lt_of_skipSpace begins)
  skipWithin closes enough := skipWithin_scalar closes enough begins noList noRecord skipped shorter

/-- The items of a list, and its closing bracket, are skipped. -/
inductive PassesItems : (isFirst : Bool) → List Char → (rest : List Char) → Prop
  | close {isFirst : Bool} {characters rest : List Char} (none : nextItem? isFirst characters = .ok none)
      (closed : closeList characters = .ok rest) : PassesItems isFirst characters rest
  | item {isFirst : Bool} {characters start more rest : List Char}
      (next : nextItem? isFirst characters = .ok (some start)) (value : Passes start more)
      (later : PassesItems false more rest) : PassesItems isFirst characters rest

/-- The members of a record, and its closing brace, are skipped. -/
inductive PassesMembers : (isFirst : Bool) → List Char → (rest : List Char) → Prop
  | close {isFirst : Bool} {characters rest : List Char}
      (none : nextName? isFirst characters = .ok (none, rest)) : PassesMembers isFirst characters rest
  | member {isFirst : Bool} {characters behind start more rest : List Char} {name : String}
      (next : nextName? isFirst characters = .ok (some name, behind)) (colon : colon behind = .ok start)
      (value : Passes start more) (later : PassesMembers false more rest) :
      PassesMembers isFirst characters rest

theorem PassesItems.shortens {isFirst : Bool} {characters rest : List Char}
    (passes : PassesItems isFirst characters rest) : rest.length < characters.length := by
  induction passes with
  | close noNext closed =>
      obtain ⟨more, bracket, same⟩ := closeList_of_nextItem? noNext
      cases same.symm.trans closed
      exact length_lt_of_skipSpace bracket
  | item next value later inductionHypothesis =>
      have shorter := nextItem?_shortens next
      have some := value.shortens
      omega

theorem PassesMembers.shortens {isFirst : Bool} {characters rest : List Char}
    (passes : PassesMembers isFirst characters rest) : rest.length < characters.length := by
  induction passes with
  | close noNext => exact length_lt_of_skipSpace (nextName?_none noNext)
  | member next colon value later inductionHypothesis =>
      have shorter := nextName?_shortens next
      have shorterToo := colon_shortens colon
      have some := value.shortens
      omega

theorem PassesItems.skipWithin {least bound : Nat} {isFirst : Bool} {enclosing : List Bracket}
    {characters rest final : List Char} (passes : PassesItems isFirst characters rest)
    (closes : Closes least enclosing rest final)
    (enough : least + 2 * characters.length + isFirst.toNat ≤ bound) :
    skipWithin bound (.inside !isFirst) (.list :: enclosing) characters = .ok final := by
  induction passes generalizing bound with
  | close noNext closed =>
      obtain ⟨more, bracket, same⟩ := closeList_of_nextItem? noNext
      cases same.symm.trans closed
      have shorter := length_lt_of_skipSpace bracket
      obtain ⟨bound, rfl⟩ := Nat.exists_eq_add_of_le' (show 1 ≤ bound by omega)
      rw [skipWithin_bracket _ bracket]
      exact closes bound (by omega)
  | @item isFirst _ _ _ _ next value later inductionHypothesis =>
      have shorter := nextItem?_shortens next
      have some := value.shortens
      obtain ⟨⟨first, behind, begins, other⟩, start⟩ := nextItem?_some next
      obtain ⟨bound, rfl⟩ := Nat.exists_eq_add_of_le' (show 1 ≤ bound by omega)
      have closesToo : Closes least (.list :: enclosing) _ final := fun bound enough =>
        inductionHypothesis closes enough
      cases isFirst with
      | true =>
          rw [if_pos rfl, begins] at start
          subst start
          rw [Bool.not_true, skipWithin_firstItem begins other]
          exact value.skipWithin closesToo (by rw [Bool.toNat_true] at enough; omega)
      | false =>
          obtain ⟨more, comma, same⟩ := start
          have shorterToo := length_lt_of_skipSpace comma
          have less := length_skipSpace_le more
          rw [← same] at less
          rw [Bool.not_false, skipWithin_nextItem comma, ← skipWithin_skipSpace, ← same]
          exact value.skipWithin closesToo (by omega)

theorem PassesMembers.skipWithin {least bound : Nat} {isFirst : Bool} {enclosing : List Bracket}
    {characters rest final : List Char} (passes : PassesMembers isFirst characters rest)
    (closes : Closes least enclosing rest final)
    (enough : least + 2 * characters.length + isFirst.toNat ≤ bound) :
    skipWithin bound (.inside !isFirst) (.record :: enclosing) characters = .ok final := by
  induction passes generalizing bound with
  | close noNext =>
      have brace := nextName?_none noNext
      have shorter := length_lt_of_skipSpace brace
      obtain ⟨bound, rfl⟩ := Nat.exists_eq_add_of_le' (show 1 ≤ bound by omega)
      rw [skipWithin_brace _ brace]
      exact closes bound (by omega)
  | @member isFirst _ _ _ _ _ _ next colon value later inductionHypothesis =>
      have shorter := nextName?_shortens next
      have shorterToo := colon_shortens colon
      have some := value.shortens
      obtain ⟨start, more, quote, read, begins⟩ := nextName?_some next
      obtain ⟨bound, rfl⟩ := Nat.exists_eq_add_of_le' (show 1 ≤ bound by omega)
      have closesToo : Closes least (.record :: enclosing) _ final := fun bound enough =>
        inductionHypothesis closes enough
      cases isFirst with
      | true =>
          rw [if_pos rfl] at begins
          subst begins
          rw [Bool.not_true, skipWithin_firstMember quote (skipName_of_readText rfl read colon)]
          exact value.skipWithin closesToo (by omega)
      | false =>
          rw [Bool.not_false, skipWithin_nextMember begins (skipName_of_readText quote read colon)]
          exact value.skipWithin closesToo (by omega)

theorem PassesItems.list {characters more rest : List Char} (passes : PassesItems true more rest)
    (begins : skipSpace characters = '[' :: more) : Passes characters rest where
  shortens := passes.shortens.trans (length_lt_of_skipSpace begins)
  skipWithin {least bound enclosing final} closes enough := by
    have shorter := length_lt_of_skipSpace begins
    obtain ⟨bound, rfl⟩ := Nat.exists_eq_add_of_le' (show 1 ≤ bound by omega)
    rw [Json.skipWithin, begins]
    exact passes.skipWithin closes (by simp; omega)

theorem PassesMembers.record {characters more rest : List Char} (passes : PassesMembers true more rest)
    (begins : skipSpace characters = '\x7b' :: more) : Passes characters rest where
  shortens := passes.shortens.trans (length_lt_of_skipSpace begins)
  skipWithin {least bound enclosing final} closes enough := by
    have shorter := length_lt_of_skipSpace begins
    obtain ⟨bound, rfl⟩ := Nat.exists_eq_add_of_le' (show 1 ≤ bound by omega)
    rw [Json.skipWithin, begins]
    exact passes.skipWithin closes (by simp; omega)

mutual

/-- A spelled value is skipped. -/
theorem Spells.passes {depth : Nat} {characters rest : List Char} {value : Json} :
    Spells depth characters value rest → Passes characters rest
  | .null begins word => .scalar begins (by decide) (by decide) word (length_expectWord_le word)
  | .yes begins word => .scalar begins (by decide) (by decide) word (length_expectWord_le word)
  | .no begins word => .scalar begins (by decide) (by decide) word (length_expectWord_le word)
  | .minus begins read =>
    .scalar begins (by decide) (by decide) (skipScalar_minus read) (readNumber_shortens read).1.le
  | .digits begins digit read => by
    have shorter := Nat.le_of_lt_succ (readNumber_shortens read).1
    refine .scalar begins ?_ ?_ (skipScalar_digits digit read) shorter
    · rintro rfl
      contradiction
    · rintro rfl
      contradiction
  | .text begins read =>
    .scalar begins (by decide) (by decide) (readText_shortens read).2 (readText_shortens read).1.le
  | .list begins _ inside => inside.passes.list begins
  | .record begins _ inside => inside.passes.record begins

theorem SpellsItems.passes {depth : Nat} {isFirst : Bool} {characters rest : List Char} {items : List Json} :
    SpellsItems depth isFirst characters items rest → PassesItems isFirst characters rest
  | .close noNext closed => .close noNext closed
  | .item next value later => .item next value.passes later.passes

theorem SpellsMembers.passes {depth : Nat} {isFirst : Bool} {characters rest : List Char}
    {members : List (String × Json)} :
    SpellsMembers depth isFirst characters members rest → PassesMembers isFirst characters rest
  | .close noNext => .close noNext
  | .member next colon value later => .member next colon value.passes later.passes

end

theorem Passes.skip {characters rest : List Char} (passes : Passes characters rest) :
    skip characters = .ok rest :=
  passes.skipWithin (closes_nil rest) (by omega)

/-- A value that stands in a text is skipped as it is read. -/
theorem Spells.skip {depth : Nat} {characters rest : List Char} {value : Json}
    (spells : Spells depth characters value rest) : skip characters = .ok rest :=
  spells.passes.skip

end DelayGenerator.Json
