/-
This file reads TOML documents.
-/

import DelayGenerator.Toml.Lexeme
import DelayGenerator.Toml.Table

namespace DelayGenerator.Toml

mutual

/-- Reads a value of at most `bound` parts that lies `depth` lists and tables deep. -/
def value? : (bound depth : Nat) → List Char → Option (Json × List Char)
  | 0, _, _ => none
  | bound + 1, depth, characters =>
    match characters with
    | '[' :: rest =>
      if depthLimit ≤ depth + 1 then none
      else do
        let (items, rest) ← items? bound (depth + 1) rest
        some (.list items, rest)
    | '\x7b' :: rest =>
      if depthLimit ≤ depth + 1 then none
      else
        match skipSpace rest with
        | '\x7d' :: rest => some (.record [], rest)
        | _ => do
          let (members, rest) ← pairs? bound (depth + 1) [] rest
          some (.record (Members.toJson members), rest)
    | '"' :: _ | '\'' :: _ => (text? characters).map fun (text, rest) => (.text text, rest)
    | _ => scalar? characters

/-- Reads the items of a list and its closing bracket. -/
def items? : (bound depth : Nat) → List Char → Option (List Json × List Char)
  | 0, _, _ => none
  | bound + 1, depth, characters =>
    match skipLines characters.length characters with
    | ']' :: rest => some ([], rest)
    | start => do
      let (item, rest) ← value? bound depth start
      match skipLines rest.length rest with
      | ',' :: rest => do
        let (others, rest) ← items? bound depth rest
        some (item :: others, rest)
      | ']' :: rest => some ([item], rest)
      | _ => none

/-- Reads the members of a table in braces and its closing brace. -/
def pairs? : (bound depth : Nat) → Members → List Char → Option (Members × List Char)
  | 0, _, _, _ => none
  | bound + 1, depth, members, characters => do
    let (key, rest) ← key? characters
    let (value, rest) ← value? bound depth (skipSpace (← expect? '=' rest))
    let members ← members.insert key value
    match skipSpace rest with
    | ',' :: rest => pairs? bound depth members rest
    | '\x7d' :: rest => some (members, rest)
    | _ => none

end

/-- Reads a key with its value up to the end of the line. -/
def pair? (characters : List Char) : Option (List String × Json × List Char) := do
  let (key, rest) ← key? characters
  let (value, rest) ← value? (characters.length + 1) 0 (skipSpace (← expect? '=' rest))
  some (key, value, ← lineEnd? rest)

/-- Reads the lines of a document, of which there are at most `bound`. Pairs belong to the table of
the latest header. -/
def lines? : (bound : Nat) → (header : List String) → Members → List Char → Option Members
  | 0, _, _, _ => none
  | bound + 1, header, members, characters =>
    match skipSpace characters with
    | [] => some members
    | '#' :: rest => do lines? bound header members (← lineEnd? ('#' :: rest))
    | '\n' :: rest => lines? bound header members rest
    | '\r' :: rest => do lines? bound header members (← newline? ('\r' :: rest))
    | '[' :: '[' :: rest => do
      let (header, rest) ← key? rest
      let rest ← lineEnd? (← expect? ']' (← expect? ']' rest))
      lines? bound header (← members.openNext header) rest
    | '[' :: rest => do
      let (header, rest) ← key? rest
      let rest ← lineEnd? (← expect? ']' rest)
      lines? bound header (← members.openTable header) rest
    | start => do
      let (key, value, rest) ← pair? start
      lines? bound header (← members.atHeader header (Members.insert key value)) rest

/-- The value of a document. A mark of the byte order in front of it does not count. -/
def parse? (text : String) : Option Json := do
  let characters := match text.toList with
    | '\ufeff' :: rest => rest
    | characters => characters
  let members ← lines? (characters.length + 1) [] [] characters
  some (.record (Members.toJson members))

end DelayGenerator.Toml
