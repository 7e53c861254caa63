/-
This file finds decimal digits for binary64 numbers: the fewest digits that read back as the same
number, and a fixed number of digits.
-/

import DelayGenerator.Binary64.Basic
import DelayGenerator.Text.Numeral

namespace DelayGenerator.Binary64

/-- A positive decimal number `coefficient * 10 ^ exponent` that is to be printed. -/
structure Digits where
  coefficient : Nat
  exponent : Int
  deriving DecidableEq

/-- Which of two equally near candidates is taken. -/
inductive Tie where
  | toEven
  | up
  deriving DecidableEq

/-- A ratio divided by `10 ^ exponent`. -/
def scaleDown (numerator denominator : Nat) (exponent : Int) : Nat × Nat :=
  if 0 ≤ exponent then (numerator, denominator * Nat.pow 10 exponent.toNat)
  else (numerator * Nat.pow 10 (-exponent).toNat, denominator)

/-- The exponent of the least power of ten that is greater than a positive ratio. A ratio below one
is measured by its inverse, which is no power of ten for a number of the format. -/
def top (numerator denominator : Nat) : Int :=
  if denominator ≤ numerator then (Text.allDigits (numerator / denominator)).length
  else 1 - ((Text.allDigits (denominator / numerator)).length : Int)

/-- The real numbers that round to one binary64 number, in quarters of `2 ^ -1074`: the two ends,
whether they belong to it, and the number itself. -/
structure Interval where
  low : Nat
  middle : Nat
  high : Nat
  closed : Bool

/-- The numbers below a power of two lie at half the distance, except at the smallest ones. -/
def interval (rank : Nat) : Interval :=
  let spacing := Nat.pow 2 (exponent rank)
  let middle := 4 * multiple rank
  let below := if rank % octaveSize == 0 && 2 * octaveSize ≤ rank then spacing else 2 * spacing
  ⟨middle - below, middle, middle + 2 * spacing, rank % 2 == 0⟩

/-- The denominator of the numbers in an `Interval`. -/
def quarters : Nat := 4 * one

/-- Whether `candidate * 10 ^ exponent` lies in the interval. -/
def Interval.holds (interval : Interval) (candidate : Nat) (exponent : Int) : Bool :=
  let (low, unit) := scaleDown interval.low quarters exponent
  let (high, _) := scaleDown interval.high quarters exponent
  if interval.closed then low ≤ candidate * unit && candidate * unit ≤ high
  else low < candidate * unit && candidate * unit < high

/-- The nearer of a number's two neighbours on the grid of the multiples of `10 ^ exponent`, among
those that lie in the interval. -/
def Interval.onGrid? (tie : Tie) (interval : Interval) (exponent : Int) : Option Nat :=
  let (middle, unit) := scaleDown interval.middle quarters exponent
  let below := middle / unit
  let rest := middle % unit
  match interval.holds below exponent, interval.holds (below + 1) exponent with
  | true, false => some below
  | false, true => some (below + 1)
  | false, false => none
  | true, true =>
    if 2 * rest < unit then some below
    else if unit < 2 * rest then some (below + 1)
    else match tie with
      | .up => some (below + 1)
      | .toEven => some (below + below % 2)

/-- The first grid with a hit, from `10 ^ exponent` through `count` finer ones. -/
def Interval.firstHit (tie : Tie) (interval : Interval) :
    (count : Nat) → (exponent : Int) → Digits
  | 0, exponent => ⟨interval.middle / (scaleDown 1 quarters exponent).2, exponent⟩
  | count + 1, exponent =>
    match interval.onGrid? tie exponent with
    | some coefficient => ⟨coefficient, exponent⟩
    | none => interval.firstHit tie count (exponent - 1)

/-- Moves the zeros at the end of the coefficient into the exponent. -/
def Digits.strip : (count : Nat) → Digits → Digits
  | 0, digits => digits
  | count + 1, digits =>
    if digits.coefficient % 10 == 0 then
      Digits.strip count ⟨digits.coefficient / 10, digits.exponent + 1⟩
    else digits

/-- The fewest digits that read back as the number of a positive rank, and of those the nearest.
Seventeen digits always suffice. -/
def shortest (tie : Tie) (rank : Nat) : Digits :=
  let interval := interval rank
  (interval.firstHit tie 17 (top interval.middle quarters - 1)).strip 17

/-- The number of a positive rank rounded to `count` significant digits, ties to even. -/
def rounded (count rank : Nat) : Digits :=
  let numerator := multiple rank
  let denominator := one
  let exponent := top numerator denominator - count
  let (scaled, unit) := scaleDown numerator denominator exponent
  let coefficient := roundRatio scaled unit
  if coefficient == Nat.pow 10 count then ⟨Nat.pow 10 (count - 1), exponent + 1⟩
  else ⟨coefficient, exponent⟩

end DelayGenerator.Binary64
