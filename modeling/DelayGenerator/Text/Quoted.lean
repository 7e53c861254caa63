/-
This file writes text in double quotes, with escapes for what does not show.
-/

import DelayGenerator.Text.Shown

namespace DelayGenerator.Text

def hexDigits (value : Nat) : List Char := Nat.toDigits 16 value

def escaped (character : Char) : List Char :=
  match character with
  | '\x00' => ['\\', '0']
  | '\t' => ['\\', 't']
  | '\n' => ['\\', 'n']
  | '\r' => ['\\', 'r']
  | '"' => ['\\', '"']
  | '\\' => ['\\', '\\']
  | _ =>
    if isShown character then [character]
    else ['\\', 'u', '\x7b'] ++ hexDigits character.toNat ++ ['\x7d']

/-- The text in quotes. -/
def quoted (text : String) : String :=
  String.ofList ('"' :: text.toList.flatMap escaped ++ ['"'])

end DelayGenerator.Text
