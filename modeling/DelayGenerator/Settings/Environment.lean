/-
This file reads settings from environment variables: the name of a variable says where its value
belongs, and the text of the value says what kind it is of.
-/

import DelayGenerator.Binary64.Decimal
import DelayGenerator.Json.Basic
import DelayGenerator.Text.Blank
import DelayGenerator.Toml.Lexeme

namespace DelayGenerator.Environment

/-- What the names of the variables begin with, in any letter case. -/
def beginning : String := "dgctl_"

def isBlank (character : Char) : Bool := [' ', '\t', '\n', '\x0c', '\r'].contains character

def skipBlanks (characters : List Char) : List Char := characters.dropWhile isBlank

/-- The characters that end a text without quotes. -/
def isSeparator (character : Char) : Bool :=
  [',', '\x7b', '\x7d', '[', ']'].contains character

/-- Undoes the escapes in a text. -/
def unescape? : (bound : Nat) → List Char → Option (List Char)
  | _, [] => some []
  | 0, _ :: _ => none
  | bound + 1, '\\' :: rest => do
    let (character, rest) ← Toml.escape? rest
    some (character :: (← unescape? bound rest))
  | bound + 1, character :: rest => do some (character :: (← unescape? bound rest))

/-- The characters up to the closing quote, with their escapes, and the rest. -/
def upToQuote? : List Char → Option (List Char × List Char)
  | [] => none
  | '"' :: rest => some ([], rest)
  | '\\' :: escaped :: rest => do
    let (read, rest) ← upToQuote? rest
    some ('\\' :: escaped :: read, rest)
  | character :: rest => do
    let (read, rest) ← upToQuote? rest
    some (character :: read, rest)

/-- Reads a quoted text behind its opening quote. -/
def quoted? (characters : List Char) : Option (String × List Char) := do
  let (read, rest) ← upToQuote? characters
  some (String.ofList (← unescape? read.length read), rest)

/-- The value of a text without quotes: a number if it reads as one, else the text itself. -/
def plainValue (text : String) : Json :=
  let isPointed := text.toList.contains '.'
  match if isPointed then Binary64.ofText? text else none with
  | some value => .number value
  | none =>
    match Text.natural? Text.wordLimit text with
    | some value => .integer value
    | none =>
      match Text.integer? text with
      | some value => .integer value
      | none => .text text

/-- Reads a name within braces. -/
def name? (characters : List Char) : Option (String × List Char) :=
  match characters with
  | '"' :: rest => quoted? rest
  | _ =>
    match characters.span Toml.isBare with
    | ([], _) => none
    | (bare, rest) => some (String.ofList bare, rest)

/-- Reads what stands behind the equals sign of a name. -/
def afterName? (characters : List Char) : Option (List Char) :=
  match skipBlanks characters with
  | '=' :: rest => some rest
  | _ => none

mutual

/-- Reads a value of at most `bound` parts, with blanks around it. -/
def value? : (bound : Nat) → List Char → Option (Json × List Char)
  | 0, _ => none
  | bound + 1, characters => do
    let (value, rest) ← match skipBlanks characters with
      | 't' :: 'r' :: 'u' :: 'e' :: rest => some (.bool true, rest)
      | 'f' :: 'a' :: 'l' :: 's' :: 'e' :: rest => some (.bool false, rest)
      | '\x7b' :: rest => do
        let (members, rest) ← members? bound rest
        some (.record members, rest)
      | '[' :: rest => do
        let (items, rest) ← items? bound rest
        some (.list items, rest)
      | '"' :: rest => do
        let (text, rest) ← quoted? rest
        some (.text text, rest)
      | '\'' :: character :: '\'' :: rest => some (.text (String.ofList [character]), rest)
      | '\'' :: _ => none
      | start =>
        let (text, rest) := start.span fun character => !isSeparator character
        some (plainValue (Text.trim (String.ofList text)), rest)
    some (value, skipBlanks rest)

/-- Reads the items of a list and its closing bracket. -/
def items? : (bound : Nat) → List Char → Option (List Json × List Char)
  | 0, _ => none
  | _ + 1, ']' :: rest => some ([], rest)
  | bound + 1, characters => do
    let (item, rest) ← value? bound characters
    match rest with
    | ',' :: rest => do
      let (others, rest) ← items? bound rest
      some (item :: others, rest)
    | ']' :: rest => some ([item], rest)
    | _ => none

/-- Reads the members of a record and its closing brace. -/
def members? : (bound : Nat) → List Char → Option (List (String × Json) × List Char)
  | 0, _ => none
  | _ + 1, '\x7d' :: rest => some ([], rest)
  | bound + 1, characters => do
    let (name, rest) ← name? (skipBlanks characters)
    let (value, rest) ← value? bound (← afterName? rest)
    match rest with
    | ',' :: rest => do
      let (others, rest) ← members? bound rest
      some ((name, value) :: others, rest)
    | '\x7d' :: rest => some ([(name, value)], rest)
    | _ => none

end

/-- The value of a variable. A text that reads as no value stands for itself. -/
def value (text : String) : Json :=
  match value? (2 * text.length + 2) text.toList with
  | some (value, []) => value
  | _ => .text text

/-- Replaces every pair of underscores, from the left, by a point. -/
def pairsToPoints : List Char → List Char
  | '_' :: '_' :: rest => '.' :: pairsToPoints rest
  | character :: rest => character :: pairsToPoints rest
  | [] => []

/-- The parts of a text between points. -/
def splitAtPoints : List Char → List (List Char)
  | [] => [[]]
  | '.' :: rest => [] :: splitAtPoints rest
  | character :: rest =>
    match splitAtPoints rest with
    | [] => [[character]]
    | part :: parts => (character :: part) :: parts

/-- The path that the name of a variable gives, if it has the right beginning. Two underscores or a
point stand between the parts, none of which is empty. -/
def path? (name : String) : Option (List String) := do
  let trimmed := (Text.trim name).toList
  let count := beginning.length
  if Text.lowercase (String.ofList (trimmed.take count)) == beginning then
    let rest := Text.trim (String.ofList (pairsToPoints (trimmed.drop count)))
    let parts := splitAtPoints rest.toList
    if parts.any List.isEmpty then none
    else some (parts.map fun part => Text.lowercase (String.ofList part))
  else none

/-- A value at the end of a path. -/
def nest (path : List String) (value : Json) : Json :=
  path.foldr (fun name inner => .record [(name, inner)]) value

/-- The value that a variable gives by its name and its text, if it belongs to the settings. -/
def layer? (named : String × String) : Option Json :=
  (path? named.1).map fun path => (nest path (value named.2)).sorted

end DelayGenerator.Environment
