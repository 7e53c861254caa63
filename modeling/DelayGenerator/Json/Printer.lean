/-
This file writes JSON values as texts.
-/

import DelayGenerator.Json.Basic
import DelayGenerator.Binary64.Notation

namespace DelayGenerator.Json

/-- The control characters that have an escape of one letter. -/
def letterFor? (character : Char) : Option Char :=
  [('"', '"'), ('\\', '\\'), ('\x08', 'b'), ('\t', 't'), ('\n', 'n'), ('\x0c', 'f'),
    ('\r', 'r')].lookup character

def hexDigit (value : Nat) : Char := Nat.digitChar (value % 16)

/-- Escapes quotes, backslashes and control characters; all else stands for itself. -/
def escaped (character : Char) : List Char :=
  match letterFor? character with
  | some letter => ['\\', letter]
  | none =>
    if character.toNat < 0x20 then
      ['\\', 'u', '0', '0', hexDigit (character.toNat / 16), hexDigit character.toNat]
    else [character]

def quotedText (text : String) : List Char :=
  '"' :: text.toList.flatMap escaped ++ ['"']

/-- A number that is not finite has no notation in JSON and is written as `null`. -/
def numberText (value : Binary64) : List Char :=
  if value.isFinite then value.document.toList else "null".toList

def scalarText : Json → List Char
  | null => "null".toList
  | bool true => "true".toList
  | bool false => "false".toList
  | integer value => Binary64.integerText value
  | number value => numberText value
  | text value => quotedText value
  | list _ => []
  | record _ => []

/-- The layout of lists and records. -/
structure Spacing where
  /-- What stands in front of a part at a given depth. -/
  lineBreak : Nat → List Char
  /-- What stands between a name and its value. -/
  separator : List Char

/-- Nothing but the value itself. -/
def Spacing.compact : Spacing := ⟨fun _ => [], [':']⟩

/-- Every part on a line of its own, two blanks further in at each depth. -/
def Spacing.pretty : Spacing := ⟨fun depth => '\n' :: List.replicate (2 * depth) ' ', [':', ' ']⟩

mutual

/-- Writes a value at a given depth. -/
def write (spacing : Spacing) (depth : Nat) : Json → List Char
  | list [] => ['[', ']']
  | list (first :: rest) =>
    '[' :: writeItems spacing (depth + 1) (first :: rest) ++ spacing.lineBreak depth ++ [']']
  | record [] => ['\x7b', '\x7d']
  | record (first :: rest) =>
    '\x7b' :: writeMembers spacing (depth + 1) (first :: rest) ++ spacing.lineBreak depth
      ++ ['\x7d']
  | scalar => scalarText scalar

/-- Writes the items of a list with commas between them. -/
def writeItems (spacing : Spacing) (depth : Nat) : List Json → List Char
  | [] => []
  | [item] => spacing.lineBreak depth ++ write spacing depth item
  | item :: rest =>
    spacing.lineBreak depth ++ write spacing depth item ++ ',' :: writeItems spacing depth rest

/-- Writes the members of a record with commas between them. -/
def writeMembers (spacing : Spacing) (depth : Nat) : List (String × Json) → List Char
  | [] => []
  | [(name, value)] =>
    spacing.lineBreak depth ++ quotedText name ++ spacing.separator ++ write spacing depth value
  | (name, value) :: rest =>
    spacing.lineBreak depth ++ quotedText name ++ spacing.separator ++ write spacing depth value
      ++ ',' :: writeMembers spacing depth rest

end

def pretty (value : Json) : String := String.ofList (write .pretty 0 value)

def compact (value : Json) : String := String.ofList (write .compact 0 value)

end DelayGenerator.Json
