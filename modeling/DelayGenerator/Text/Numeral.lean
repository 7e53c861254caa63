/-
This file reads whole numbers written in decimal digits and writes digit strings of a fixed length.
-/

namespace DelayGenerator.Text

/-- The value of a decimal digit. -/
def digitValue? (character : Char) : Option Nat :=
  if character.isDigit then some (character.toNat - '0'.toNat) else none

/-- The decimal digit of a number below ten. -/
def digit (value : Nat) : Char :=
  Char.ofNat ('0'.toNat + value % 10)

/-- The number that a list of digits denotes, with `high` in front of it. -/
def digitsFrom? (high : Nat) : List Char → Option Nat
  | [] => some high
  | character :: rest =>
    match digitValue? character with
    | some value => digitsFrom? (10 * high + value) rest
    | none => none

/-- The number that a non-empty list of digits denotes. -/
def digits? : List Char → Option Nat
  | [] => none
  | characters => digitsFrom? 0 characters

/-- The last `count` digits of a number, leading zeros included. -/
def lastDigits : (count value : Nat) → List Char
  | 0, _ => []
  | count + 1, value => lastDigits count (value / 10) ++ [digit value]

/-- All digits of a number, without leading zeros. -/
def allDigits (value : Nat) : List Char :=
  Nat.toDigits 10 value

/-- The greatest number that a machine word holds. -/
def wordLimit : Nat := Nat.pow 2 64 - 1

/-- The greatest number that half a machine word holds. -/
def halfWordLimit : Nat := Nat.pow 2 32 - 1

/-- The least number that a signed machine word does not hold. Its negative is held. -/
def signedLimit : Nat := Nat.pow 2 63

/-- A natural number up to the limit; a plus sign may stand in front. -/
def natural? (limit : Nat) (text : String) : Option Nat := do
  let characters := match text.toList with
    | '+' :: rest => rest
    | characters => characters
  let value ← digits? characters
  if value ≤ limit then some value else none

/-- A whole number of a signed machine word; a sign may stand in front. -/
def integer? (text : String) : Option Int := do
  match text.toList with
  | '-' :: rest =>
    let value ← digits? rest
    if value ≤ signedLimit then some (-(value : Int)) else none
  | characters =>
    let value ← digits? (match characters with | '+' :: rest => rest | _ => characters)
    if value < signedLimit then some (value : Int) else none

theorem lengthLastDigits (count value : Nat) : (lastDigits count value).length = count := by
  induction count generalizing value with
  | zero => rfl
  | succ count inductionHypothesis => simp [lastDigits, inductionHypothesis]

end DelayGenerator.Text
