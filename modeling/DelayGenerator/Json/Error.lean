/-
This file names what can be wrong with a JSON document and how each fault is worded.
-/

import DelayGenerator.Binary64.Notation
import DelayGenerator.Text.Quoted

namespace DelayGenerator.Json

/-- What stands where something else was expected. -/
inductive Found where
  | null
  | bool (value : Bool)
  | integer (value : Int)
  | number (value : Binary64)
  | text (value : String)
  | list
  | record
  deriving DecidableEq

/-- A scalar as a form field gives it. -/
inductive Scalar where
  | bool (value : Bool)
  | integer (value : Int)
  | number (value : Binary64)
  | text (value : String)
  deriving DecidableEq

/-- What is wrong with a scalar where a form field of some kind is expected. -/
inductive Refusal where
  | notNumber (text : String)
  | notTime (value : Bool)
  | timeOutOfRange (value : Binary64)
  | notIndex (text : String)
  | badIndex (scalar : Scalar)
  | notSwitch (text : String)
  | notPolarity (text : String)
  | badPolarity (scalar : Scalar)
  deriving DecidableEq

inductive Error where
  | endInValue
  | endInText
  | endInList
  | endInRecord
  | trailingCharacters
  | trailingComma
  | expectedCommaOrBracket
  | expectedCommaOrBrace
  | expectedColon
  | expectedValue
  | expectedWord
  | keyNotText
  | invalidNumber
  | numberOutOfRange
  | invalidEscape
  | incompleteSurrogatePair
  | loneSurrogate
  | controlCharacter
  | tooDeep
  | wrongKind (found : Found) (expected : String)
  | wrongLength (length : Nat) (expected : String)
  | missingField (name : String)
  | duplicateField (name : String)
  | noAlternative (name : String)
  | refused (refusal : Refusal)
  deriving DecidableEq

def boolText (value : Bool) : String := if value then "true" else "false"

def Found.phrase : Found → String
  | null => "null"
  | bool value => "boolean `" ++ boolText value ++ "`"
  | integer value => "integer `" ++ toString value ++ "`"
  | number value => "floating point `" ++ value.document ++ "`"
  | text value => "string " ++ Text.quoted value
  | list => "sequence"
  | record => "map"

def Scalar.phrase : Scalar → String
  | bool value => "Bool(" ++ boolText value ++ ")"
  | integer value => "Int(" ++ toString value ++ ")"
  | number value => "Float(" ++ value.explicit ++ ")"
  | text value => "Text(" ++ Text.quoted value ++ ")"

def Refusal.message : Refusal → String
  | notNumber given => "'" ++ given ++ "' is not a number"
  | notTime value => "expected a time, got " ++ boolText value
  | timeOutOfRange value => "time must be finite and non-negative, got " ++ value.plain
  | notIndex given => "'" ++ given ++ "' is not an index"
  | badIndex scalar => "bad index " ++ scalar.phrase
  | notSwitch given => "'" ++ given ++ "' is not on/off"
  | notPolarity given => "'" ++ given ++ "' is not a polarity"
  | badPolarity scalar => "bad polarity " ++ scalar.phrase

def Error.message : Error → String
  | endInValue => "EOF while parsing a value"
  | endInText => "EOF while parsing a string"
  | endInList => "EOF while parsing a list"
  | endInRecord => "EOF while parsing an object"
  | trailingCharacters => "trailing characters"
  | trailingComma => "trailing comma"
  | expectedCommaOrBracket => "expected `,` or `]`"
  | expectedCommaOrBrace => "expected `,` or `\x7d`"
  | expectedColon => "expected `:`"
  | expectedValue => "expected value"
  | expectedWord => "expected ident"
  | keyNotText => "key must be a string"
  | invalidNumber => "invalid number"
  | numberOutOfRange => "number out of range"
  | invalidEscape => "invalid escape"
  | incompleteSurrogatePair => "unexpected end of hex escape"
  | loneSurrogate => "lone leading surrogate in hex escape"
  | controlCharacter => "control character (\\u0000-\\u001F) found while parsing a string"
  | tooDeep => "recursion limit exceeded"
  | wrongKind found expected => "invalid type: " ++ found.phrase ++ ", expected " ++ expected
  | wrongLength length expected =>
    "invalid length " ++ toString length ++ ", expected " ++ expected
  | missingField name => "missing field `" ++ name ++ "`"
  | duplicateField name => "duplicate field `" ++ name ++ "`"
  | noAlternative name => "data did not match any variant of untagged enum " ++ name
  | refused refusal => refusal.message

end DelayGenerator.Json
