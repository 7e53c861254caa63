/-
This file scales whole numbers by powers of ten in the arithmetic of the format. The whole number and the power are
rounded first, and so is the result, which need not be the number nearest to the decimal one.
-/

import DelayGenerator.Binary64.Basic

namespace DelayGenerator.Binary64

/-- The number with the other sign. -/
def negate : Binary64 → Binary64
  | nan => nan
  | infinite negative => infinite !negative
  | finite negative rank => finite (!negative) rank

/-- The greatest power of ten in the range of the format. -/
def greatestPower : Nat := 308

/-- The number nearest to a power of ten. -/
def powerOfTen (power : Nat) : Binary64 := ofRatio false (Nat.pow 10 power) 1

/-- Divides by the greatest power of ten again and again, but not beyond zero. -/
def shrink : (rounds : Nat) → Binary64 → Binary64
  | 0, value => value
  | rounds + 1, value =>
    if value.isZero then value else shrink rounds (value / powerOfTen greatestPower)

/-- A whole number times a power of ten. Powers that are too small for the format are taken in several rounds, and
powers that are too great for it lead beyond its range. -/
def scaled (significand : Nat) (exponent : Int) : Binary64 :=
  let value := ofInt significand
  if greatestPower < exponent then if value.isZero then value else infinite false
  else if 0 ≤ exponent then value * powerOfTen exponent.toNat
  else
    let further := (-exponent).toNat - 1
    shrink (further / greatestPower) value / powerOfTen (further % greatestPower + 1)

end DelayGenerator.Binary64
