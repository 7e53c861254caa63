/-
This file reads numbers in decimal notation.
-/

import DelayGenerator.Binary64.Basic
import DelayGenerator.Text.Numeral

namespace DelayGenerator

/-- A decimal number: `coefficient * 10 ^ exponent`, with a sign. -/
structure Decimal where
  negative : Bool
  coefficient : Nat
  exponent : Int
  deriving DecidableEq

namespace Decimal

/-- The binary64 number nearest to a decimal number. Exponents that put the number out of the range
of the format are settled without computing the power. -/
def toBinary64 (decimal : Decimal) : Binary64 :=
  let top := decimal.exponent + (Text.allDigits decimal.coefficient).length
  if decimal.coefficient == 0 || top < -400 then Binary64.zero decimal.negative
  else if 400 < top then .infinite decimal.negative
  else if 0 ≤ decimal.exponent then
    .ofRatio decimal.negative (decimal.coefficient * Nat.pow 10 decimal.exponent.toNat) 1
  else .ofRatio decimal.negative decimal.coefficient (Nat.pow 10 (-decimal.exponent).toNat)

/-- The digits in front of the first other character, and the rest. -/
def spanDigits (characters : List Char) : List Char × List Char :=
  characters.span Char.isDigit

/-- The number that a list of digits denotes, zero if there are none. -/
def digitsValue (digits : List Char) : Nat :=
  (Text.digitsFrom? 0 digits).getD 0

/-- The exponent part: nothing, or a letter `e` and a number with or without a sign. -/
def exponentPart? : List Char → Option Int
  | [] => some 0
  | mark :: rest =>
    if mark == 'e' || mark == 'E' then
      match rest with
      | '-' :: digits => (Text.digits? digits).map fun value => -(value : Int)
      | '+' :: digits => (Text.digits? digits).map fun value => (value : Int)
      | digits => (Text.digits? digits).map fun value => (value : Int)
    else none

/-- Reads digits with at most one point among, before or after them, and an exponent part. -/
def unsigned? (negative : Bool) (characters : List Char) : Option Decimal := do
  let (whole, afterWhole) := spanDigits characters
  let (fraction, rest) := match afterWhole with
    | '.' :: afterPoint => spanDigits afterPoint
    | _ => ([], afterWhole)
  if whole.isEmpty && fraction.isEmpty then none
  let exponent ← exponentPart? rest
  some ⟨negative, digitsValue (whole ++ fraction), exponent - fraction.length⟩

end Decimal

namespace Binary64

/-- The number with a given decimal notation `coefficient * 10 ^ exponent`. -/
def ofDecimal (coefficient : Nat) (exponent : Int) : Binary64 :=
  Decimal.toBinary64 ⟨false, coefficient, exponent⟩

/-- The words for numbers that have no digits, in any letter case. -/
def word? (negative : Bool) (characters : List Char) : Option Binary64 :=
  let word := characters.map Char.toLower
  if word == "inf".toList || word == "infinity".toList then some (infinite negative)
  else if word == "nan".toList then some nan
  else none

def unsigned? (negative : Bool) (characters : List Char) : Option Binary64 :=
  match word? negative characters with
  | some value => some value
  | none => (Decimal.unsigned? negative characters).map Decimal.toBinary64

/-- Reads a number: a sign or none, then digits or a word. Nothing else may stand in the text. -/
def ofText? (text : String) : Option Binary64 :=
  match text.toList with
  | '-' :: rest => unsigned? true rest
  | '+' :: rest => unsigned? false rest
  | characters => unsigned? false characters

end Binary64

end DelayGenerator
