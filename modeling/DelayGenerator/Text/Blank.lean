/-
This file fixes which characters count as blank and how text is trimmed.
-/

namespace DelayGenerator.Text

/-- The characters with the Unicode property `White_Space`, as ranges of code points. -/
def blankRanges : List (Nat × Nat) :=
  [(0x0009, 0x000D), (0x0020, 0x0020), (0x0085, 0x0085), (0x00A0, 0x00A0), (0x1680, 0x1680),
   (0x2000, 0x200A), (0x2028, 0x2029), (0x202F, 0x202F), (0x205F, 0x205F), (0x3000, 0x3000)]

def isBlank (character : Char) : Bool :=
  blankRanges.any fun range => range.1 ≤ character.toNat && character.toNat ≤ range.2

/-- The list without its trailing elements that satisfy the test. -/
def dropTrailing {α : Type} (test : α → Bool) : List α → List α
  | [] => []
  | first :: rest =>
    match dropTrailing test rest with
    | [] => if test first then [] else [first]
    | kept => first :: kept

/-- The text without blanks at either end. -/
def trim (text : String) : String :=
  String.ofList (dropTrailing isBlank (text.toList.dropWhile isBlank))

/-- The text without carriage returns and newlines at its end. -/
def stripLineEnd (text : String) : String :=
  String.ofList
    (dropTrailing (fun character => character == '\r' || character == '\n') text.toList)

/-- The text with its ASCII capitals made small. -/
def lowercase (text : String) : String :=
  String.ofList (text.toList.map Char.toLower)

/-- The text with its ASCII small letters made capital. -/
def uppercase (text : String) : String :=
  String.ofList (text.toList.map Char.toUpper)

/-- The text after a given beginning, if it begins so. -/
def after? (beginning text : String) : Option String :=
  (beginning.toList.isPrefixOf? text.toList).map String.ofList

/-- Whether the characters contain a given sequence. -/
def contains (sequence : List Char) : List Char → Bool
  | [] => sequence.isEmpty
  | first :: rest => sequence.isPrefixOf (first :: rest) || contains sequence rest

/-- The two parts of a list around the first element that satisfies the test. -/
def splitAtFirst? {α : Type} (test : α → Bool) (items : List α) : Option (List α × List α) :=
  match items.dropWhile (fun item => !test item) with
  | [] => none
  | _ :: rest => some (items.takeWhile (fun item => !test item), rest)

end DelayGenerator.Text
