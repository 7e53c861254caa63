/-
This file reads the smallest parts of JSON texts: blanks, words, numbers and quoted texts. Each
reader takes the characters from where it starts and gives the characters behind what it has read.
-/

import DelayGenerator.Binary64.Decimal
import DelayGenerator.Binary64.Scaling
import DelayGenerator.Json.Basic
import DelayGenerator.Json.Error

namespace DelayGenerator.Json

/-- How closely a value is looked at: `close` when it is wanted, `loose` when it is skipped. -/
inductive Care where
  | close
  | loose
  deriving DecidableEq

def isSpace (character : Char) : Bool :=
  character == ' ' || character == '\n' || character == '\t' || character == '\r'

def skipSpace (characters : List Char) : List Char := characters.dropWhile isSpace

/-- Reads the given characters. -/
def expectWord : (word characters : List Char) → Except Error (List Char)
  | [], rest => .ok rest
  | _ :: _, [] => .error .endInValue
  | letter :: word, character :: rest =>
    if letter == character then expectWord word rest else .error .expectedWord

/-- What is wrong where a digit is missing. -/
def missingDigit (care : Care) (rest : List Char) : Error :=
  if care == .close && rest.isEmpty then .endInValue else .invalidNumber

/-- Reads at least one digit. -/
def someDigits (care : Care) (characters : List Char) : Except Error (List Char × List Char) :=
  match Decimal.spanDigits characters with
  | ([], rest) => .error (missingDigit care rest)
  | (digits, rest) => .ok (digits, rest)

/-- The digits in front of the point. A zero there stands alone. -/
def wholePart (care : Care) (characters : List Char) : Except Error (List Char × List Char) := do
  let (digits, rest) ← someDigits care characters
  if digits.length != 1 && digits.head? == some '0' then .error .invalidNumber
  else .ok (digits, rest)

/-- The digits behind a point, if there is one. -/
def fractionPart (care : Care) : List Char → Except Error (Option (List Char) × List Char)
  | '.' :: rest => do
    let (digits, rest) ← someDigits care rest
    .ok (some digits, rest)
  | rest => .ok (none, rest)

/-- The exponent behind its mark, if there is one. -/
def exponentPart (care : Care) : List Char → Except Error (Option Int × List Char)
  | [] => .ok (none, [])
  | mark :: rest =>
    if mark == 'e' || mark == 'E' then
      let (negative, rest) := match rest with
        | '-' :: rest => (true, rest)
        | '+' :: rest => (false, rest)
        | rest => (false, rest)
      do
        let (digits, rest) ← someDigits care rest
        let value : Int := Decimal.digitsValue digits
        .ok (some (if negative then -value else value), rest)
    else .ok (none, mark :: rest)

/-- A number as it is written. -/
structure Numeral where
  negative : Bool
  whole : List Char
  fraction : Option (List Char)
  exponent : Option Int

/-- Reads a number behind its sign. -/
def numeral (care : Care) (negative : Bool) (characters : List Char) :
    Except Error (Numeral × List Char) := do
  let (whole, rest) ← wholePart care characters
  let (fraction, rest) ← fractionPart care rest
  let (exponent, rest) ← exponentPart care rest
  .ok (⟨negative, whole, fraction, exponent⟩, rest)

/-- Puts digits behind a number as long as a machine word holds it, and gives the digits that are left. -/
def fitDigits : (word : Nat) → List Char → Nat × List Char
  | word, [] => (word, [])
  | word, digit :: others =>
    let longer := 10 * word + (digit.toNat - '0'.toNat)
    if longer ≤ Text.wordLimit then fitDigits longer others else (word, digit :: others)

/-- The digits of a number that a machine word holds, and the power of ten they are multiplied with. Of the digits
that do not fit, those in front of the point still count as places. -/
def Numeral.parts (numeral : Numeral) : Nat × Int :=
  let fraction := numeral.fraction.getD []
  let (word, places) := fitDigits 0 numeral.whole
  let (significand, left) := fitDigits word fraction
  (significand, numeral.exponent.getD 0 + places.length - (fraction.length - left.length))

/-- The number that a literal is taken for, which is mostly, but not always, the nearest one. Literals beyond the
range of the format are refused. -/
def Numeral.toNumber (numeral : Numeral) : Except Error Json :=
  let (significand, exponent) := numeral.parts
  let value := Binary64.scaled significand exponent
  if value.isFinite then .ok (.number (if numeral.negative then value.negate else value))
  else .error .numberOutOfRange

/-- The value of a number. Whole numbers of a machine word, signed or not, are kept exactly. Minus
zero is none of them. -/
def Numeral.toJson (numeral : Numeral) : Except Error Json :=
  let value := Decimal.digitsValue numeral.whole
  let isWhole := numeral.fraction.isNone && numeral.exponent.isNone
  if isWhole && !numeral.negative && value ≤ Text.wordLimit then .ok (.integer value)
  else if isWhole && numeral.negative && value != 0 && value ≤ Text.signedLimit then
    .ok (.integer (-value))
  else numeral.toNumber

def readNumber (negative : Bool) (characters : List Char) : Except Error (Json × List Char) := do
  let (numeral, rest) ← numeral .close negative characters
  .ok (← numeral.toJson, rest)

/-- The value of a hexadecimal digit. -/
def hexValue? (character : Char) : Option Nat :=
  if character.isDigit then some (character.toNat - '0'.toNat)
  else if 'a' ≤ character && character ≤ 'f' then some (character.toNat - 'a'.toNat + 10)
  else if 'A' ≤ character && character ≤ 'F' then some (character.toNat - 'A'.toNat + 10)
  else none

/-- The bytes that the characters take in UTF-8. -/
def utf8Length : List Char → Nat
  | [] => 0
  | character :: rest => character.utf8Size + utf8Length rest

/-- Reads four hexadecimal digits. -/
def hexQuad : List Char → Except Error (Nat × List Char)
  | first :: second :: third :: fourth :: rest =>
    match hexValue? first, hexValue? second, hexValue? third, hexValue? fourth with
    | some a, some b, some c, some d => .ok (((a * 16 + b) * 16 + c) * 16 + d, rest)
    | _, _, _, _ => .error .invalidEscape
  | few => .error (if utf8Length few < 4 then .endInText else .invalidEscape)

/-- Reads the second escape of a pair that denotes one character. -/
def lowSurrogate (high : Nat) : List Char → Except Error (Char × List Char)
  | [] => .error .endInText
  | '\\' :: [] => .error .endInText
  | '\\' :: 'u' :: rest => do
    let (low, rest) ← hexQuad rest
    if 0xDC00 ≤ low && low ≤ 0xDFFF then
      .ok (Char.ofNat ((high - 0xD800) * 0x400 + (low - 0xDC00) + 0x10000), rest)
    else .error .loneSurrogate
  | _ => .error .incompleteSurrogatePair

/-- Reads the code of a character behind `\u`. -/
def codedCharacter (characters : List Char) : Except Error (Char × List Char) := do
  let (code, rest) ← hexQuad characters
  if 0xDC00 ≤ code && code ≤ 0xDFFF then .error .loneSurrogate
  else if 0xD800 ≤ code && code ≤ 0xDBFF then lowSurrogate code rest
  else .ok (Char.ofNat code, rest)

/-- The characters that a single letter behind a backslash denotes. -/
def letterEscapes : List (Char × Char) :=
  [('"', '"'), ('\\', '\\'), ('/', '/'), ('b', '\x08'), ('f', '\x0c'), ('n', '\n'), ('r', '\r'),
    ('t', '\t')]

/-- Reads what stands behind a backslash. -/
def escape : List Char → Except Error (Char × List Char)
  | [] => .error .endInText
  | 'u' :: rest => codedCharacter rest
  | letter :: rest =>
    match letterEscapes.lookup letter with
    | some character => .ok (character, rest)
    | none => .error .invalidEscape

/-- Skips what stands behind a backslash. Which character a code denotes does not matter. -/
def skipEscape : List Char → Except Error (List Char)
  | [] => .error .endInText
  | 'u' :: rest => do .ok (← hexQuad rest).2
  | letter :: rest =>
    match letterEscapes.lookup letter with
    | some _ => .ok rest
    | none => .error .invalidEscape

/-- Reads a text behind its opening quote, of at most `bound` characters. -/
def textWithin : (bound : Nat) → List Char → Except Error (List Char × List Char)
  | 0, _ => .error .endInText
  | _ + 1, [] => .error .endInText
  | _ + 1, '"' :: rest => .ok ([], rest)
  | bound + 1, '\\' :: rest => do
    let (character, rest) ← escape rest
    let (others, rest) ← textWithin bound rest
    .ok (character :: others, rest)
  | bound + 1, character :: rest =>
    if character.toNat < 0x20 then .error .controlCharacter
    else do
      let (others, rest) ← textWithin bound rest
      .ok (character :: others, rest)

def skipTextWithin : (bound : Nat) → List Char → Except Error (List Char)
  | 0, _ => .error .endInText
  | _ + 1, [] => .error .endInText
  | _ + 1, '"' :: rest => .ok rest
  | bound + 1, '\\' :: rest => do skipTextWithin bound (← skipEscape rest)
  | bound + 1, character :: rest =>
    if character.toNat < 0x20 then .error .controlCharacter else skipTextWithin bound rest

/-- Reads a text behind its opening quote. -/
def readText (characters : List Char) : Except Error (String × List Char) := do
  let (read, rest) ← textWithin characters.length characters
  .ok (String.ofList read, rest)

def skipText (characters : List Char) : Except Error (List Char) :=
  skipTextWithin characters.length characters

/-- Reads the colon between a name and its value. -/
def colon (characters : List Char) : Except Error (List Char) :=
  match skipSpace characters with
  | [] => .error .endInRecord
  | ':' :: rest => .ok rest
  | _ => .error .expectedColon

/-- Finds where the next item of a list begins. There is none before the closing bracket. -/
def nextItem? (isFirst : Bool) (characters : List Char) : Except Error (Option (List Char)) :=
  match skipSpace characters with
  | [] => .error .endInList
  | ']' :: _ => .ok none
  | first :: rest =>
    if isFirst then .ok (some (first :: rest))
    else if first == ',' then
      match skipSpace rest with
      | [] => .error .endInValue
      | ']' :: _ => .error .trailingComma
      | next => .ok (some next)
    else .error .expectedCommaOrBracket

/-- Reads the closing bracket of a list of which no more items are wanted. -/
def closeList (characters : List Char) : Except Error (List Char) :=
  match skipSpace characters with
  | [] => .error .endInList
  | ']' :: rest => .ok rest
  | ',' :: rest =>
    match skipSpace rest with
    | ']' :: _ => .error .trailingComma
    | _ => .error .trailingCharacters
  | _ => .error .trailingCharacters

/-- Reads the name of the next member of a record. There is none before the closing brace. -/
def nextName? (isFirst : Bool) (characters : List Char) :
    Except Error (Option String × List Char) :=
  match skipSpace characters with
  | [] => .error .endInRecord
  | '\x7d' :: rest => .ok (none, rest)
  | '"' :: rest =>
    if isFirst then do
      let (name, rest) ← readText rest
      .ok (some name, rest)
    else .error .expectedCommaOrBrace
  | ',' :: rest =>
    if isFirst then .error .keyNotText
    else
      match skipSpace rest with
      | [] => .error .endInValue
      | '"' :: rest => do
        let (name, rest) ← readText rest
        .ok (some name, rest)
      | '\x7d' :: _ => .error .trailingComma
      | _ => .error .keyNotText
  | _ => .error (if isFirst then .keyNotText else .expectedCommaOrBrace)

end DelayGenerator.Json
