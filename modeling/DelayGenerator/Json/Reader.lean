/-
This file reads JSON texts as values, and skips values that are not wanted.
-/

import DelayGenerator.Json.Lexeme

namespace DelayGenerator.Json

/-- How deeply lists and records may be nested, counted down to zero. -/
def depthLimit : Nat := 128

mutual

/-- Reads a value of at most `bound` parts, nested less deeply than `depth`. -/
def readWithin : (bound depth : Nat) → List Char → Except Error (Json × List Char)
  | 0, _, _ => .error .endInValue
  | bound + 1, depth, characters =>
    match skipSpace characters with
    | [] => .error .endInValue
    | 'n' :: rest => do .ok (null, ← expectWord ['u', 'l', 'l'] rest)
    | 't' :: rest => do .ok (bool true, ← expectWord ['r', 'u', 'e'] rest)
    | 'f' :: rest => do .ok (bool false, ← expectWord ['a', 'l', 's', 'e'] rest)
    | '-' :: rest => readNumber true rest
    | '"' :: rest => do
      let (value, rest) ← readText rest
      .ok (text value, rest)
    | '[' :: rest =>
      if depth ≤ 1 then .error .tooDeep
      else do
        let (items, rest) ← readItemsWithin bound (depth - 1) true rest
        .ok (list items, rest)
    | '\x7b' :: rest =>
      if depth ≤ 1 then .error .tooDeep
      else do
        let (members, rest) ← readMembersWithin bound (depth - 1) true rest
        .ok (record members, rest)
    | first :: rest =>
      if first.isDigit then readNumber false (first :: rest) else .error .expectedValue

/-- Reads the items of a list and its closing bracket. -/
def readItemsWithin : (bound depth : Nat) → (isFirst : Bool) → List Char →
    Except Error (List Json × List Char)
  | 0, _, _, _ => .error .endInList
  | bound + 1, depth, isFirst, characters => do
    match ← nextItem? isFirst characters with
    | none => .ok ([], ← closeList characters)
    | some characters =>
      let (item, rest) ← readWithin bound depth characters
      let (others, rest) ← readItemsWithin bound depth false rest
      .ok (item :: others, rest)

/-- Reads the members of a record and its closing brace. -/
def readMembersWithin : (bound depth : Nat) → (isFirst : Bool) → List Char →
    Except Error (List (String × Json) × List Char)
  | 0, _, _, _ => .error .endInRecord
  | bound + 1, depth, isFirst, characters => do
    match ← nextName? isFirst characters with
    | (none, rest) => .ok ([], rest)
    | (some name, rest) =>
      let (value, rest) ← readWithin bound depth (← colon rest)
      let (others, rest) ← readMembersWithin bound depth false rest
      .ok ((name, value) :: others, rest)

end

/-- Reads a value. Every part of it takes a character at least. -/
def read (depth : Nat) (characters : List Char) : Except Error (Json × List Char) :=
  readWithin (characters.length + 1) depth characters

/-- Accepts a reading that leaves nothing but space. -/
def finish {α : Type} (reading : Except Error (α × List Char)) : Except Error α := do
  let (value, rest) ← reading
  match skipSpace rest with
  | [] => .ok value
  | _ => .error .trailingCharacters

/-- The value of a text. -/
def parse (text : String) : Except Error Json :=
  finish (read depthLimit text.toList)

/-- A list or a record that is being skipped. -/
inductive Bracket where
  | list
  | record
  deriving DecidableEq

/-- Skips a value that is no list and no record. -/
def skipScalar : List Char → Except Error (List Char)
  | [] => .error .endInValue
  | 'n' :: rest => expectWord ['u', 'l', 'l'] rest
  | 't' :: rest => expectWord ['r', 'u', 'e'] rest
  | 'f' :: rest => expectWord ['a', 'l', 's', 'e'] rest
  | '-' :: rest => do .ok (← numeral .loose true rest).2
  | '"' :: rest => skipText rest
  | first :: rest =>
    if first.isDigit then do .ok (← numeral .loose false (first :: rest)).2
    else .error .expectedValue

/-- Skips the name of a member and the colon behind it. -/
def skipName (characters : List Char) : Except Error (List Char) :=
  match skipSpace characters with
  | [] => .error .endInRecord
  | '"' :: rest => do colon (← skipText rest)
  | _ => .error .keyNotText

/-- Where skipping stands: before a value, or inside brackets behind their opening or behind a
complete part. -/
inductive Place where
  | value
  | inside (afterPart : Bool)
  deriving DecidableEq

/-- Skips a value with the brackets that are open around it, innermost first. Nesting is not
limited here. -/
def skipWithin : (bound : Nat) → Place → List Bracket → List Char → Except Error (List Char)
  | 0, _, _, _ => .error .endInValue
  | bound + 1, .value, enclosing, characters =>
    match skipSpace characters with
    | '[' :: rest => skipWithin bound (.inside false) (.list :: enclosing) rest
    | '\x7b' :: rest => skipWithin bound (.inside false) (.record :: enclosing) rest
    | start => do
      let rest ← skipScalar start
      if enclosing.isEmpty then .ok rest else skipWithin bound (.inside true) enclosing rest
  | _ + 1, .inside _, [], characters => .ok characters
  | bound + 1, .inside afterPart, bracket :: outer, characters => do
    let before := skipSpace characters
    let part (rest : List Char) : Except Error (List Char) := do
      match bracket with
      | .list => skipWithin bound .value (bracket :: outer) rest
      | .record => skipWithin bound .value (bracket :: outer) (← skipName rest)
    match bracket, before with
    | .list, [] => .error .endInList
    | .record, [] => .error .endInRecord
    | .list, ']' :: rest => skipWithin bound (.inside true) outer rest
    | .record, '\x7d' :: rest => skipWithin bound (.inside true) outer rest
    | _, first :: rest =>
      if afterPart then
        if first == ',' then part rest
        else .error (if bracket == .list then .expectedCommaOrBracket else .expectedCommaOrBrace)
      else part before

/-- Skips a value. -/
def skip (characters : List Char) : Except Error (List Char) :=
  skipWithin (2 * characters.length + 2) .value [] characters

end DelayGenerator.Json
