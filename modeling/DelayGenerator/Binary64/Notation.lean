/-
This file writes binary64 numbers in the notations of the instrument, the documents and the
messages. Each notation is one choice of digits and one layout of them.
-/

import DelayGenerator.Binary64.Shortest

namespace DelayGenerator.Binary64

/-- How many digits a printed number has. -/
def Digits.count (digits : Digits) : Nat := (Text.allDigits digits.coefficient).length

/-- Digits with a point inside, before or behind them, and zeros where digits are missing. -/
def Digits.positional (digits : Digits) : List Char :=
  let characters := Text.allDigits digits.coefficient
  let whole := digits.exponent + characters.length
  if 0 ≤ digits.exponent then characters ++ List.replicate digits.exponent.toNat '0'
  else if 0 < whole then characters.take whole.toNat ++ '.' :: characters.drop whole.toNat
  else '0' :: '.' :: List.replicate (-whole).toNat '0' ++ characters

def integerText (value : Int) : List Char :=
  if value < 0 then '-' :: Text.allDigits value.natAbs else Text.allDigits value.natAbs

/-- A whole number with its sign in any case. -/
def signedText (value : Int) : List Char :=
  if value < 0 then integerText value else '+' :: integerText value

/-- One digit, a point and the other digits, and the exponent behind the letter `e`. -/
def Digits.scientific (exponentText : Int → List Char) (digits : Digits) : List Char :=
  let characters := Text.allDigits digits.coefficient
  let exponent := digits.exponent + characters.length - 1
  let fraction := match characters.drop 1 with
    | [] => []
    | others => '.' :: others
  characters.take 1 ++ fraction ++ 'e' :: exponentText exponent

def sign (negative : Bool) : List Char := if negative then ['-'] else []

/-- A finite number is written by `zero` or by `positive`, the others by their words. -/
def write (zero : List Char) (positive : Nat → List Char) : Binary64 → String
  | nan => "NaN"
  | infinite negative => String.ofList (sign negative ++ "inf".toList)
  | finite negative rank =>
    String.ofList (sign negative ++ if rank.val == 0 then zero else positive rank.val)

/-- Six places behind the point and an exponent, as the instrument takes and gives times. -/
def scientific : Binary64 → String :=
  write "0.000000E0".toList fun rank =>
    let digits := rounded 7 rank
    Text.lastDigits 1 (digits.coefficient / 1000000) ++ '.' :: Text.lastDigits 6 digits.coefficient
      ++ 'E' :: integerText (digits.exponent + 6)

/-- The fewest digits, always positional: the notation of a number within a message. -/
def plain : Binary64 → String :=
  write ['0'] fun rank => (shortest .up rank).positional

/-- The digits with `.0` behind them where they show no point. -/
def withPoint (digits : Digits) : List Char :=
  if 0 ≤ digits.exponent then digits.positional ++ ['.', '0'] else digits.positional

/-- The fewest digits, with a point or an exponent always: positional from `10 ^ -4` up to
`10 ^ 16`. -/
def explicit : Binary64 → String :=
  write "0.0".toList fun rank =>
    let digits := shortest .up rank
    let whole := digits.exponent + digits.count
    if -3 ≤ whole ∧ whole ≤ 16 then withPoint digits else digits.scientific integerText

/-- The fewest digits, with a point or an exponent always: positional from `10 ^ -5` up to
`10 ^ 16`, and the exponent has its sign. This is the notation of numbers in documents. -/
def document : Binary64 → String :=
  write "0.0".toList fun rank =>
    let digits := shortest .toEven rank
    let whole := digits.exponent + digits.count
    if -4 ≤ whole ∧ whole ≤ 16 then withPoint digits else digits.scientific signedText

end DelayGenerator.Binary64
