/-
This file reads the smallest parts of TOML texts: blanks, comments, quoted texts, keys, numbers and
dates. Each reader takes the characters from where it starts and gives the characters behind what it
has read.
-/

import DelayGenerator.Binary64.Decimal
import DelayGenerator.Json.Basic
import DelayGenerator.Text.Blank

namespace DelayGenerator.Toml

def isSpace (character : Char) : Bool := character == ' ' || character == '\t'

def skipSpace (characters : List Char) : List Char := characters.dropWhile isSpace

/-- The characters that may stand in texts and comments: no control character but the tab. -/
def isPlain (character : Char) : Bool :=
  character == '\t' || (0x20 ≤ character.toNat && character.toNat != 0x7F)

/-- Reads a newline, with a carriage return in front or not. -/
def newline? : List Char → Option (List Char)
  | '\n' :: rest => some rest
  | '\r' :: '\n' :: rest => some rest
  | _ => none

/-- Skips a comment up to the end of the line, if there is one. -/
def skipComment : List Char → List Char
  | '#' :: rest => rest.dropWhile isPlain
  | characters => characters

/-- Reads the end of a line behind space and a comment. The end of the text is one. -/
def lineEnd? (characters : List Char) : Option (List Char) :=
  match skipComment (skipSpace characters) with
  | [] => some []
  | rest => newline? rest

/-- Skips space, newlines and comments, up to `bound` of them. -/
def skipLines : (bound : Nat) → List Char → List Char
  | 0, characters => characters
  | bound + 1, characters =>
    match newline? (skipComment (skipSpace characters)) with
    | some rest => skipLines bound rest
    | none => skipSpace characters

/-- The value of a digit in a base up to sixteen. -/
def digitIn? (base : Nat) (character : Char) : Option Nat :=
  let value :=
    if character.isDigit then character.toNat - '0'.toNat
    else if 'a' ≤ character && character ≤ 'f' then character.toNat - 'a'.toNat + 10
    else if 'A' ≤ character && character ≤ 'F' then character.toNat - 'A'.toNat + 10
    else base
  if value < base then some value else none

/-- The number that digits denote in a base, with `high` in front of it. -/
def digitsIn? (base high : Nat) : List Char → Option Nat
  | [] => some high
  | character :: rest => do digitsIn? base (base * high + (← digitIn? base character)) rest

/-- Reads the code of a character in a number of hexadecimal digits. -/
def codedCharacter? (count : Nat) (characters : List Char) : Option (Char × List Char) := do
  let digits := characters.take count
  let code ← digitsIn? 16 0 digits
  if digits.length == count && (code < 0xD800 || (0xDFFF < code && code < 0x110000)) then
    some (Char.ofNat code, characters.drop count)
  else none

/-- The characters that a single letter behind a backslash denotes. -/
def letterEscapes : List (Char × Char) :=
  [('b', '\x08'), ('t', '\t'), ('n', '\n'), ('f', '\x0c'), ('r', '\r'), ('"', '"'), ('\\', '\\')]

/-- Reads what stands behind a backslash. -/
def escape? : List Char → Option (Char × List Char)
  | [] => none
  | 'u' :: rest => codedCharacter? 4 rest
  | 'U' :: rest => codedCharacter? 8 rest
  | letter :: rest => (letterEscapes.lookup letter).map fun character => (character, rest)

/-- Reads a text of one line behind its opening quote, of at most `bound` characters. -/
def lineText? : (bound : Nat) → List Char → Option (List Char × List Char)
  | 0, _ => none
  | _ + 1, [] => none
  | _ + 1, '"' :: rest => some ([], rest)
  | bound + 1, '\\' :: rest => do
    let (character, rest) ← escape? rest
    let (others, rest) ← lineText? bound rest
    some (character :: others, rest)
  | bound + 1, character :: rest =>
    if isPlain character then do
      let (others, rest) ← lineText? bound rest
      some (character :: others, rest)
    else none

/-- Reads a text of one line without escapes behind its opening apostrophe. -/
def lineLiteral? : List Char → Option (List Char × List Char)
  | [] => none
  | '\'' :: rest => some ([], rest)
  | character :: rest =>
    if isPlain character then do
      let (others, rest) ← lineLiteral? rest
      some (character :: others, rest)
    else none

/-- What a row of quotes in a text of several lines means: up to two are text, and three behind up
to two of text end it. -/
inductive QuoteRow where
  | text
  | ending (quotes : Nat)
  | tooLong
  deriving DecidableEq

def QuoteRow.ofLength (length : Nat) : QuoteRow :=
  if length < 3 then .text else if length ≤ 5 then .ending (length - 3) else .tooLong

/-- Whether a backslash stands at the end of a line. -/
def continues (characters : List Char) : Bool := (newline? (skipSpace characters)).isSome

/-- Reads a text of several lines behind its opening quotes, in at most `bound` parts. A backslash
at the end of a line joins it with the next one that is not blank. -/
def manyLineText? : (bound : Nat) → List Char → Option (List Char × List Char)
  | 0, _ => none
  | _ + 1, [] => none
  | bound + 1, '"' :: rest =>
    let row := '"' :: rest.takeWhile (· == '"')
    match QuoteRow.ofLength row.length with
    | .ending quotes => some (List.replicate quotes '"', rest.dropWhile (· == '"'))
    | .tooLong => none
    | .text => do
      let (others, rest) ← manyLineText? bound (rest.dropWhile (· == '"'))
      some (row ++ others, rest)
  | bound + 1, '\\' :: rest =>
    if continues rest then
      manyLineText? bound (rest.dropWhile fun character =>
        isSpace character || character == '\n' || character == '\r')
    else do
      let (character, rest) ← escape? rest
      let (others, rest) ← manyLineText? bound rest
      some (character :: others, rest)
  | bound + 1, character :: rest =>
    match newline? (character :: rest) with
    | some rest => do
      let (others, rest) ← manyLineText? bound rest
      some ('\n' :: others, rest)
    | none =>
      if isPlain character then do
        let (others, rest) ← manyLineText? bound rest
        some (character :: others, rest)
      else none

/-- Reads a text of several lines without escapes behind its opening apostrophes. -/
def manyLineLiteral? : (bound : Nat) → List Char → Option (List Char × List Char)
  | 0, _ => none
  | _ + 1, [] => none
  | bound + 1, '\'' :: rest =>
    let row := '\'' :: rest.takeWhile (· == '\'')
    match QuoteRow.ofLength row.length with
    | .ending quotes => some (List.replicate quotes '\'', rest.dropWhile (· == '\''))
    | .tooLong => none
    | .text => do
      let (others, rest) ← manyLineLiteral? bound (rest.dropWhile (· == '\''))
      some (row ++ others, rest)
  | bound + 1, character :: rest =>
    match newline? (character :: rest) with
    | some rest => do
      let (others, rest) ← manyLineLiteral? bound rest
      some ('\n' :: others, rest)
    | none =>
      if isPlain character then do
        let (others, rest) ← manyLineLiteral? bound rest
        some (character :: others, rest)
      else none

/-- Skips the newline behind the quotes that open a text of several lines. -/
def skipNewline (characters : List Char) : List Char := (newline? characters).getD characters

/-- Reads a quoted text of any kind. -/
def text? (characters : List Char) : Option (String × List Char) := do
  let (read, rest) ← match characters with
    | '"' :: '"' :: '"' :: rest => manyLineText? (rest.length + 1) (skipNewline rest)
    | '"' :: rest => lineText? (rest.length + 1) rest
    | '\'' :: '\'' :: '\'' :: rest => manyLineLiteral? (rest.length + 1) (skipNewline rest)
    | '\'' :: rest => lineLiteral? rest
    | _ => none
  some (String.ofList read, rest)

/-- The characters of a key that needs no quotes. -/
def isBare (character : Char) : Bool :=
  character.isAlphanum || character == '_' || character == '-'

/-- Reads one part of a key. -/
def simpleKey? (characters : List Char) : Option (String × List Char) := do
  match characters with
  | '"' :: rest =>
    let (read, rest) ← lineText? (rest.length + 1) rest
    some (String.ofList read, rest)
  | '\'' :: rest =>
    let (read, rest) ← lineLiteral? rest
    some (String.ofList read, rest)
  | _ =>
    match characters.span isBare with
    | ([], _) => none
    | (bare, rest) => some (String.ofList bare, rest)

/-- Reads the parts of a key, with points between them and space around them. -/
def keyWithin? : (bound : Nat) → List Char → Option (List String × List Char)
  | 0, _ => none
  | bound + 1, characters => do
    let (name, rest) ← simpleKey? (skipSpace characters)
    match skipSpace rest with
    | '.' :: rest =>
      let (others, rest) ← keyWithin? bound rest
      some (name :: others, rest)
    | rest => some ([name], rest)

/-- How deeply values may be nested, and how many parts a key may have, is less than this. -/
def depthLimit : Nat := 80

def key? (characters : List Char) : Option (List String × List Char) := do
  let (names, rest) ← keyWithin? (characters.length + 1) characters
  if names.length < depthLimit then some (names, rest) else none

/-- The digits of a number whose digits may have single underscores between them. -/
def separatedDigits? (base : Nat) : List Char → Option (List Char)
  | [] => none
  | [digit] => if (digitIn? base digit).isSome then some [digit] else none
  | digit :: '_' :: rest =>
    if (digitIn? base digit).isSome then (separatedDigits? base rest).map (digit :: ·) else none
  | digit :: rest =>
    if (digitIn? base digit).isSome then (separatedDigits? base rest).map (digit :: ·) else none

/-- The digits of a decimal number without leading zeros. -/
def wholeDigits? (characters : List Char) : Option (List Char) := do
  let digits ← separatedDigits? 10 characters
  if digits.length != 1 && digits.head? == some '0' then none else some digits

/-- The sign in front of a number, and the rest. -/
def splitSign : List Char → Bool × List Char
  | '-' :: rest => (true, rest)
  | '+' :: rest => (false, rest)
  | characters => (false, characters)

/-- A whole number of a signed machine word. -/
def signedWord? (negative : Bool) (value : Nat) : Option Int :=
  if negative then if value ≤ Text.signedLimit then some (-value) else none
  else if value < Text.signedLimit then some value else none

def basedInteger? (base : Nat) (characters : List Char) : Option Int := do
  signedWord? false (← digitsIn? base 0 (← separatedDigits? base characters))

def integer? (token : List Char) : Option Int :=
  match token with
  | '0' :: 'x' :: rest => basedInteger? 16 rest
  | '0' :: 'o' :: rest => basedInteger? 8 rest
  | '0' :: 'b' :: rest => basedInteger? 2 rest
  | _ => do
    let (negative, rest) := splitSign token
    signedWord? negative (← digitsIn? 10 0 (← wholeDigits? rest))

/-- The exponent of a number: a mark, a sign or none, and digits. -/
def exponent? : List Char → Option Int
  | mark :: rest => do
    if mark == 'e' || mark == 'E' then
      let (negative, digits) := splitSign rest
      let value : Int := (← digitsIn? 10 0 (← separatedDigits? 10 digits))
      some (if negative then -value else value)
    else none
  | [] => none

def isMark (character : Char) : Bool := character == 'e' || character == 'E'

/-- A number with a fraction or an exponent, or a word for one that has no digits. A positive number
beyond the greatest finite one is refused. -/
def number? (token : List Char) : Option Binary64 := do
  let (negative, rest) := splitSign token
  if rest == "inf".toList then some (.infinite negative)
  else if rest == "nan".toList then some .nan
  else
    let (mantissa, scale) := rest.span fun character => !isMark character
    let (whole, tail) := mantissa.span fun character => character != '.'
    let fraction ← match tail with
      | [] => if scale.isEmpty then none else some []
      | _ :: digits => separatedDigits? 10 digits
    let exponent ← if scale.isEmpty then some 0 else exponent? scale
    let digits := (← wholeDigits? whole) ++ fraction
    let value := Decimal.toBinary64
      ⟨negative, Decimal.digitsValue digits, exponent - fraction.length⟩
    if value == .infinite false then none else some value

/-- The number in exactly so many digits, if it lies within bounds. -/
def fixedDigits? (count low high : Nat) (characters : List Char) : Option (Nat × List Char) := do
  let value ← Text.digits? (characters.take count)
  if (characters.take count).length == count && low ≤ value && value ≤ high then
    some (value, characters.drop count)
  else none

def expect? (character : Char) : List Char → Option (List Char)
  | first :: rest => if first == character then some rest else none
  | [] => none

def isLeapYear (year : Nat) : Bool := year % 4 == 0 && (year % 100 != 0 || year % 400 == 0)

def daysIn (year month : Nat) : Nat :=
  if month == 2 then if isLeapYear year then 29 else 28
  else if [4, 6, 9, 11].contains month then 30
  else 31

/-- Reads a date and gives what stands behind it. -/
def date? (characters : List Char) : Option (List Char) := do
  let (year, rest) ← fixedDigits? 4 0 9999 characters
  let (month, rest) ← fixedDigits? 2 1 12 (← expect? '-' rest)
  let (_, rest) ← fixedDigits? 2 1 (daysIn year month) (← expect? '-' rest)
  some rest

/-- Reads a time of day. -/
def timeOfDay? (characters : List Char) : Option (List Char) := do
  let (_, rest) ← fixedDigits? 2 0 23 characters
  let (_, rest) ← fixedDigits? 2 0 59 (← expect? ':' rest)
  let (_, rest) ← fixedDigits? 2 0 60 (← expect? ':' rest)
  match rest with
  | '.' :: rest =>
    let (digits, rest) := Decimal.spanDigits rest
    if digits.isEmpty then none else some rest
  | _ => some rest

/-- Reads the offset of a time zone, if there is one. -/
def offset? (characters : List Char) : Option (List Char) := do
  match characters with
  | 'Z' :: rest => some rest
  | 'z' :: rest => some rest
  | sign :: rest =>
    if sign == '+' || sign == '-' then
      let (_, rest) ← fixedDigits? 2 0 23 rest
      let (_, rest) ← fixedDigits? 2 0 59 (← expect? ':' rest)
      some rest
    else some (sign :: rest)
  | [] => some []

/-- Whether all of a token is a time of day with an offset or without. -/
def isZonedTime (token : List Char) : Bool :=
  (timeOfDay? token).any fun rest => offset? rest == some []

/-- Whether a token is a date, a time, or both with the letter `T` between them. -/
def isDateTime (token : List Char) : Bool :=
  timeOfDay? token == some [] ||
    match date? token with
    | some [] => true
    | some (mark :: rest) => (mark == 'T' || mark == 't') && isZonedTime rest
    | none => false

/-- The characters that end a number, a word or a date. -/
def isDelimiter (character : Char) : Bool :=
  [' ', '\t', '\n', '\r', '#', ',', ']', '\x7d'].contains character

/-- Reads a word, a number or a date. A date and a time may have a blank between them. What a date
says does not matter here. -/
def scalar? (characters : List Char) : Option (Json × List Char) :=
  let (token, rest) := characters.span fun character => !isDelimiter character
  let date : Json := .record [("date", .text (String.ofList token))]
  if token == "true".toList then some (.bool true, rest)
  else if token == "false".toList then some (.bool false, rest)
  else if date? token == some [] then
    match rest with
    | ' ' :: more =>
      let (time, rest') := more.span fun character => !isDelimiter character
      if isZonedTime time then some (date, rest') else some (date, rest)
    | _ => some (date, rest)
  else if isDateTime token then some (date, rest)
  else match integer? token with
    | some value => some (.integer value, rest)
    | none => (number? token).map fun value => (.number value, rest)

end DelayGenerator.Toml
