/-
This file says which texts spell which values, without any bound on the reading, and that values are
read from a text exactly where the text spells them.
-/

import DelayGenerator.Json.Reader
import DelayGenerator.Proofs.Json.Lexeme
import Mathlib.Data.List.DropRight

namespace DelayGenerator.Json

mutual

/-- The text begins with a value, nested less deeply than `depth`, and goes on with the rest. -/
inductive Spells : (depth : Nat) → List Char → Json → (rest : List Char) → Prop
  | null {depth : Nat} {characters more rest : List Char} (begins : skipSpace characters = 'n' :: more)
      (word : expectWord ['u', 'l', 'l'] more = .ok rest) : Spells depth characters null rest
  | yes {depth : Nat} {characters more rest : List Char} (begins : skipSpace characters = 't' :: more)
      (word : expectWord ['r', 'u', 'e'] more = .ok rest) : Spells depth characters (bool true) rest
  | no {depth : Nat} {characters more rest : List Char} (begins : skipSpace characters = 'f' :: more)
      (word : expectWord ['a', 'l', 's', 'e'] more = .ok rest) : Spells depth characters (bool false) rest
  | minus {depth : Nat} {characters more rest : List Char} {value : Json}
      (begins : skipSpace characters = '-' :: more) (number : readNumber true more = .ok (value, rest)) :
      Spells depth characters value rest
  | digits {depth : Nat} {characters more rest : List Char} {first : Char} {value : Json}
      (begins : skipSpace characters = first :: more) (digit : first.isDigit = true)
      (number : readNumber false (first :: more) = .ok (value, rest)) : Spells depth characters value rest
  | text {depth : Nat} {characters more rest : List Char} {value : String}
      (begins : skipSpace characters = '"' :: more) (read : readText more = .ok (value, rest)) :
      Spells depth characters (text value) rest
  | list {depth : Nat} {characters more rest : List Char} {items : List Json}
      (begins : skipSpace characters = '[' :: more) (deep : 1 < depth)
      (inside : SpellsItems (depth - 1) true more items rest) : Spells depth characters (list items) rest
  | record {depth : Nat} {characters more rest : List Char} {members : List (String × Json)}
      (begins : skipSpace characters = '\x7b' :: more) (deep : 1 < depth)
      (inside : SpellsMembers (depth - 1) true more members rest) :
      Spells depth characters (record members) rest

/-- The text begins with the items of a list and its closing bracket. -/
inductive SpellsItems : (depth : Nat) → (isFirst : Bool) → List Char → List Json → (rest : List Char) → Prop
  | close {depth : Nat} {isFirst : Bool} {characters rest : List Char}
      (none : nextItem? isFirst characters = .ok none) (closed : closeList characters = .ok rest) :
      SpellsItems depth isFirst characters [] rest
  | item {depth : Nat} {isFirst : Bool} {characters start more rest : List Char} {item : Json}
      {others : List Json} (next : nextItem? isFirst characters = .ok (some start))
      (value : Spells depth start item more) (later : SpellsItems depth false more others rest) :
      SpellsItems depth isFirst characters (item :: others) rest

/-- The text begins with the members of a record and its closing brace. -/
inductive SpellsMembers :
    (depth : Nat) → (isFirst : Bool) → List Char → List (String × Json) → (rest : List Char) → Prop
  | close {depth : Nat} {isFirst : Bool} {characters rest : List Char}
      (none : nextName? isFirst characters = .ok (none, rest)) :
      SpellsMembers depth isFirst characters [] rest
  | member {depth : Nat} {isFirst : Bool} {characters behind start more rest : List Char} {name : String}
      {value : Json} {others : List (String × Json)}
      (next : nextName? isFirst characters = .ok (some name, behind)) (colon : colon behind = .ok start)
      (spells : Spells depth start value more) (later : SpellsMembers depth false more others rest) :
      SpellsMembers depth isFirst characters ((name, value) :: others) rest

end

/-- What is read within a bound is spelled: a value, the items of a list and the members of a record. -/
structure ReadsSpelled (bound : Nat) : Prop where
  value : ∀ {depth : Nat} {characters rest : List Char} {value : Json},
    readWithin bound depth characters = .ok (value, rest) → Spells depth characters value rest
  items : ∀ {depth : Nat} {isFirst : Bool} {characters rest : List Char} {items : List Json},
    readItemsWithin bound depth isFirst characters = .ok (items, rest) →
      SpellsItems depth isFirst characters items rest
  members : ∀ {depth : Nat} {isFirst : Bool} {characters rest : List Char} {members : List (String × Json)},
    readMembersWithin bound depth isFirst characters = .ok (members, rest) →
      SpellsMembers depth isFirst characters members rest

namespace ReadsSpelled

variable {bound depth : Nat} {isFirst : Bool} {characters rest : List Char}

theorem value_succ {value : Json} (spelled : ReadsSpelled bound)
    (read : readWithin (bound + 1) depth characters = .ok (value, rest)) : Spells depth characters value rest := by
  rw [readWithin] at read
  split at read
  next => contradiction
  next more begins =>
    obtain ⟨left, word, same⟩ := of_bind read
    cases same
    exact .null begins word
  next more begins =>
    obtain ⟨left, word, same⟩ := of_bind read
    cases same
    exact .yes begins word
  next more begins =>
    obtain ⟨left, word, same⟩ := of_bind read
    cases same
    exact .no begins word
  next more begins => exact .minus begins read
  next more begins =>
    obtain ⟨found, text, same⟩ := of_bind read
    cases same
    exact .text begins text
  next more begins =>
    split at read
    next => contradiction
    next deep =>
      obtain ⟨found, inside, same⟩ := of_bind read
      cases same
      exact .list begins (Nat.lt_of_not_le deep) (spelled.items inside)
  next more begins =>
    split at read
    next => contradiction
    next deep =>
      obtain ⟨found, inside, same⟩ := of_bind read
      cases same
      exact .record begins (Nat.lt_of_not_le deep) (spelled.members inside)
  next first more _ _ _ _ _ _ _ begins =>
    split at read
    next digit => exact .digits begins digit read
    next => contradiction

theorem items_succ {items : List Json} (spelled : ReadsSpelled bound)
    (read : readItemsWithin (bound + 1) depth isFirst characters = .ok (items, rest)) :
    SpellsItems depth isFirst characters items rest := by
  rw [readItemsWithin] at read
  obtain ⟨next, found, read⟩ := of_bind read
  cases next with
  | none =>
      obtain ⟨left, closed, same⟩ := of_bind read
      cases same
      exact .close found closed
  | some start =>
      obtain ⟨item, value, read⟩ := of_bind read
      obtain ⟨others, later, same⟩ := of_bind read
      cases same
      exact .item found (spelled.value value) (spelled.items later)

theorem members_succ {members : List (String × Json)} (spelled : ReadsSpelled bound)
    (read : readMembersWithin (bound + 1) depth isFirst characters = .ok (members, rest)) :
    SpellsMembers depth isFirst characters members rest := by
  rw [readMembersWithin] at read
  obtain ⟨⟨next, behind⟩, found, read⟩ := of_bind read
  cases next with
  | none =>
      cases read
      exact .close found
  | some name =>
      obtain ⟨start, colon, read⟩ := of_bind read
      obtain ⟨item, value, read⟩ := of_bind read
      obtain ⟨others, later, same⟩ := of_bind read
      cases same
      exact .member found colon (spelled.value value) (spelled.members later)

end ReadsSpelled

theorem readsSpelled (bound : Nat) : ReadsSpelled bound := by
  induction bound with
  | zero => exact ⟨fun read => by contradiction, fun read => by contradiction, fun read => by contradiction⟩
  | succ bound spelled => exact ⟨spelled.value_succ, spelled.items_succ, spelled.members_succ⟩

theorem nextItem?_shortens {isFirst : Bool} {characters start : List Char}
    (next : nextItem? isFirst characters = .ok (some start)) : start.length ≤ characters.length := by
  obtain ⟨_, begins⟩ := nextItem?_some next
  cases isFirst with
  | true =>
      rw [if_pos rfl] at begins
      rw [begins]
      exact length_skipSpace_le characters
  | false =>
      obtain ⟨more, comma, same⟩ := begins
      have shorter := length_lt_of_skipSpace comma
      have shorterToo := length_skipSpace_le more
      rw [same]
      omega

theorem nextName?_shortens {isFirst : Bool} {characters behind : List Char} {name : String}
    (next : nextName? isFirst characters = .ok (some name, behind)) : behind.length < characters.length := by
  obtain ⟨start, more, quote, read, begins⟩ := nextName?_some next
  have shorter := (readText_shortens read).1
  have shorterToo := length_lt_of_skipSpace quote
  cases isFirst with
  | true =>
      rw [if_pos rfl] at begins
      rw [← begins]
      omega
  | false =>
      have comma := length_lt_of_skipSpace begins
      omega

mutual

/-- A value takes a character at least. -/
theorem Spells.shortens {depth : Nat} {characters rest : List Char} {value : Json} :
    Spells depth characters value rest → rest.length < characters.length
  | .null begins word => Nat.lt_of_le_of_lt (length_expectWord_le word) (length_lt_of_skipSpace begins)
  | .yes begins word => Nat.lt_of_le_of_lt (length_expectWord_le word) (length_lt_of_skipSpace begins)
  | .no begins word => Nat.lt_of_le_of_lt (length_expectWord_le word) (length_lt_of_skipSpace begins)
  | .minus begins read => (readNumber_shortens read).1.trans (length_lt_of_skipSpace begins)
  | .digits begins _ read =>
    Nat.lt_of_lt_of_le (readNumber_shortens read).1 (begins ▸ length_skipSpace_le characters)
  | .text begins read => (readText_shortens read).1.trans (length_lt_of_skipSpace begins)
  | .list begins _ inside => inside.shortens.trans (length_lt_of_skipSpace begins)
  | .record begins _ inside => inside.shortens.trans (length_lt_of_skipSpace begins)

theorem SpellsItems.shortens {depth : Nat} {isFirst : Bool} {characters rest : List Char}
    {items : List Json} :
    SpellsItems depth isFirst characters items rest → rest.length < characters.length
  | .close noNext closed => by
    obtain ⟨more, bracket, same⟩ := closeList_of_nextItem? noNext
    cases same.symm.trans closed
    exact length_lt_of_skipSpace bracket
  | .item next value later =>
    later.shortens.trans (Nat.lt_of_lt_of_le value.shortens (nextItem?_shortens next))

theorem SpellsMembers.shortens {depth : Nat} {isFirst : Bool} {characters rest : List Char}
    {members : List (String × Json)} :
    SpellsMembers depth isFirst characters members rest → rest.length < characters.length
  | .close noNext => length_lt_of_skipSpace (nextName?_none noNext)
  | .member next colon spells later =>
    later.shortens.trans (spells.shortens.trans ((colon_shortens colon).trans (nextName?_shortens next)))

end

/-- No digit begins another value. -/
theorem readWithin_digits {depth bound : Nat} {characters more : List Char} {first : Char}
    (begins : skipSpace characters = first :: more) (digit : first.isDigit = true) :
    readWithin (bound + 1) depth characters = readNumber false (first :: more) := by
  rw [readWithin, begins]
  split <;> simp_all

mutual

/-- What is spelled is read, with as much of a bound as characters are taken. -/
theorem Spells.readWithin {depth bound : Nat} {characters rest : List Char} {value : Json}
    (enough : characters.length ≤ bound + 1 + rest.length) :
    Spells depth characters value rest → readWithin (bound + 1) depth characters = .ok (value, rest)
  | .null begins word => by simp only [Json.readWithin, begins, word, bind, Except.bind]
  | .yes begins word => by simp only [Json.readWithin, begins, word, bind, Except.bind]
  | .no begins word => by simp only [Json.readWithin, begins, word, bind, Except.bind]
  | .minus begins read => by simp only [Json.readWithin, begins, read]
  | .digits begins digit read => by rw [readWithin_digits begins digit, read]
  | .text begins read => by simp only [Json.readWithin, begins, read, bind, Except.bind]
  | .list begins deep inside => by
    have shorter := length_lt_of_skipSpace begins
    have some := inside.shortens
    obtain ⟨bound, rfl⟩ := Nat.exists_eq_add_of_le' (show 1 ≤ bound by omega)
    simp only [Json.readWithin, begins, if_neg (Nat.not_le_of_lt deep),
      inside.readWithin (show _ ≤ bound + 1 + rest.length by omega), bind, Except.bind]
  | .record begins deep inside => by
    have shorter := length_lt_of_skipSpace begins
    have some := inside.shortens
    obtain ⟨bound, rfl⟩ := Nat.exists_eq_add_of_le' (show 1 ≤ bound by omega)
    simp only [Json.readWithin, begins, if_neg (Nat.not_le_of_lt deep),
      inside.readWithin (show _ ≤ bound + 1 + rest.length by omega), bind, Except.bind]

theorem SpellsItems.readWithin {depth bound : Nat} {isFirst : Bool} {characters rest : List Char}
    {items : List Json} (enough : characters.length ≤ bound + 1 + rest.length) :
    SpellsItems depth isFirst characters items rest →
      readItemsWithin (bound + 1) depth isFirst characters = .ok (items, rest)
  | .close noNext closed => by simp only [readItemsWithin, noNext, closed, bind, Except.bind]
  | .item next value later => by
    have shorter := nextItem?_shortens next
    have some := value.shortens
    have someToo := later.shortens
    obtain ⟨bound, rfl⟩ := Nat.exists_eq_add_of_le' (show 1 ≤ bound by omega)
    have readItem := value.readWithin (show _ ≤ bound + 1 + _ by omega)
    have readOthers := later.readWithin (show _ ≤ bound + 1 + _ by omega)
    rw [readItemsWithin, next]
    simp only [readItem, readOthers, bind, Except.bind]

theorem SpellsMembers.readWithin {depth bound : Nat} {isFirst : Bool} {characters rest : List Char}
    {members : List (String × Json)} (enough : characters.length ≤ bound + 1 + rest.length) :
    SpellsMembers depth isFirst characters members rest →
      readMembersWithin (bound + 1) depth isFirst characters = .ok (members, rest)
  | .close noNext => by simp only [readMembersWithin, noNext, bind, Except.bind]
  | .member next colon value later => by
    have shorter := nextName?_shortens next
    have shorterToo := colon_shortens colon
    have some := value.shortens
    have someToo := later.shortens
    obtain ⟨bound, rfl⟩ := Nat.exists_eq_add_of_le' (show 1 ≤ bound by omega)
    have readValue := value.readWithin (show _ ≤ bound + 1 + _ by omega)
    have readOthers := later.readWithin (show _ ≤ bound + 1 + _ by omega)
    rw [readMembersWithin, next]
    simp only [colon, readValue, readOthers, bind, Except.bind]

end

/-- A value is read from a text exactly where the text spells it. -/
theorem read_eq_ok_iff {depth : Nat} {characters rest : List Char} {value : Json} :
    read depth characters = .ok (value, rest) ↔ Spells depth characters value rest :=
  ⟨(readsSpelled _).value, Spells.readWithin (by omega)⟩

theorem skipSpace_skipSpace (characters : List Char) :
    skipSpace (skipSpace characters) = skipSpace characters :=
  List.dropWhile_idempotent _ _

/-- Blanks in front of a value do not matter. -/
theorem Spells.congr {depth : Nat} {characters other rest : List Char} {value : Json}
    (spells : Spells depth characters value rest) (same : skipSpace characters = skipSpace other) :
    Spells depth other value rest := by
  cases spells with
  | null begins word => exact .null (same ▸ begins) word
  | yes begins word => exact .yes (same ▸ begins) word
  | no begins word => exact .no (same ▸ begins) word
  | minus begins read => exact .minus (same ▸ begins) read
  | digits begins digit read => exact .digits (same ▸ begins) digit read
  | text begins read => exact .text (same ▸ begins) read
  | list begins deep inside => exact .list (same ▸ begins) deep inside
  | record begins deep inside => exact .record (same ▸ begins) deep inside

end DelayGenerator.Json
