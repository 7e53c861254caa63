/-
This file holds the numbers of the IEEE 754 format binary64 with exact arithmetic: every operation
computes a ratio of whole numbers and rounds it once, to the nearest number, ties to even.
-/

namespace DelayGenerator

/-- How many numbers of the format lie from one power of two up to the next. -/
def octaveSize : Nat := Nat.pow 2 52

/-- How many non-negative finite numbers the format has. -/
def finiteCount : Nat := 2047 * octaveSize

/-- A binary64 number. A finite number is a sign and the rank of its size among the non-negative
finite numbers, counted from zero. -/
inductive Binary64 where
  | nan
  | infinite (negative : Bool)
  | finite (negative : Bool) (rank : Fin finiteCount)
  deriving DecidableEq

namespace Binary64

/-- The number of size `rank` is `significand rank * 2 ^ exponent rank / 2 ^ 1074`. -/
def significand (rank : Nat) : Nat :=
  if rank < octaveSize then rank else octaveSize + rank % octaveSize

def exponent (rank : Nat) : Nat := rank / octaveSize - 1

/-- The size of a rank, as a multiple of `2 ^ -1074`. -/
def multiple (rank : Nat) : Nat := significand rank * Nat.pow 2 (exponent rank)

/-- The number one, as a multiple of `2 ^ -1074`. -/
def one : Nat := Nat.pow 2 1074

/-- The whole number nearest to a ratio, ties to even. -/
def roundRatio (numerator denominator : Nat) : Nat :=
  let quotient := numerator / denominator
  let remainder := numerator % denominator
  if 2 * remainder < denominator then quotient
  else if denominator < 2 * remainder then quotient + 1
  else quotient + quotient % 2

/-- The rank nearest to a ratio, ties to even. The spacing of the numbers is constant up to rank
`2 ^ 53` and doubles every `2 ^ 52` ranks from there. -/
def nearestRank (numerator denominator : Nat) : Nat :=
  let scaled := numerator * one
  let doublings := (scaled / denominator).log2 - 52
  doublings * octaveSize + roundRatio scaled (denominator * Nat.pow 2 doublings)

/-- The number nearest to a ratio. A ratio beyond the greatest finite number becomes infinite. -/
def ofRatio (negative : Bool) (numerator denominator : Nat) : Binary64 :=
  let rank := nearestRank numerator denominator
  if inRange : rank < finiteCount then finite negative ⟨rank, inRange⟩ else infinite negative

def zero (negative : Bool) : Binary64 := finite negative ⟨0, by decide⟩

def ofInt (value : Int) : Binary64 := ofRatio (value < 0) value.natAbs 1

def isFinite : Binary64 → Bool
  | finite _ _ => true
  | _ => false

/-- Whether the number is less than zero. Neither zero is, nor is a number that is none. -/
def isBelowZero : Binary64 → Bool
  | nan => false
  | infinite negative => negative
  | finite negative rank => negative && rank.val != 0

/-- Whether the number is zero of either sign. -/
def isZero : Binary64 → Bool
  | finite _ rank => rank.val == 0
  | _ => false

/-- Whether a time may have this value: a finite number that is not below zero. -/
def isTime (value : Binary64) : Bool := value.isFinite && !value.isBelowZero

def multiply : Binary64 → Binary64 → Binary64
  | nan, _ => nan
  | _, nan => nan
  | infinite left, infinite right => infinite (left != right)
  | infinite left, finite right rank => if rank.val == 0 then nan else infinite (left != right)
  | finite left rank, infinite right => if rank.val == 0 then nan else infinite (left != right)
  | finite left leftRank, finite right rightRank =>
    ofRatio (left != right) (multiple leftRank * multiple rightRank) (one * one)

def divide : Binary64 → Binary64 → Binary64
  | nan, _ => nan
  | _, nan => nan
  | infinite _, infinite _ => nan
  | infinite left, finite right _ => infinite (left != right)
  | finite left _, infinite right => zero (left != right)
  | finite left leftRank, finite right rightRank =>
    if rightRank.val == 0 then
      if leftRank.val == 0 then nan else infinite (left != right)
    else ofRatio (left != right) (multiple leftRank) (multiple rightRank)

/-- The signed size of a finite number, as a multiple of `2 ^ -1074`. -/
def signedMultiple (negative : Bool) (rank : Nat) : Int :=
  if negative then -(multiple rank : Int) else multiple rank

def add : Binary64 → Binary64 → Binary64
  | nan, _ => nan
  | _, nan => nan
  | infinite left, infinite right => if left == right then infinite left else nan
  | infinite left, finite _ _ => infinite left
  | finite _ _, infinite right => infinite right
  | finite left leftRank, finite right rightRank =>
    let total := signedMultiple left leftRank + signedMultiple right rightRank
    if total == 0 then zero (left && right) else ofRatio (total < 0) total.natAbs one

instance : Mul Binary64 := ⟨multiply⟩

instance : Div Binary64 := ⟨divide⟩

instance : Add Binary64 := ⟨add⟩

/-- The bit of the sign. -/
def signBit (negative : Bool) : Nat := if negative then Nat.pow 2 63 else 0

/-- The 64 bits of the interchange format. There is one `nan` here, written with the quiet bit. -/
def toBits : Binary64 → Nat
  | nan => 0x7FF8 * Nat.pow 2 48
  | infinite negative => signBit negative + finiteCount
  | finite negative rank => signBit negative + rank.val

theorem isTimeFinite {value : Binary64} (time : value.isTime) : value.isFinite := by
  simp only [isTime, Bool.and_eq_true] at time
  exact time.1

end Binary64

end DelayGenerator
