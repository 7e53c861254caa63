/-
This file reads the fields of a form. A form gives a number as a number or as text, a switch or a
polarity as a word, a checkbox or a number, and leaves a field empty where it has no value.
-/

import DelayGenerator.Json.Decoder
import DelayGenerator.Pulse.Basic

namespace DelayGenerator.Document

open Json (Decoder Error Refusal Scalar)

/-- The scalar that a value is. A whole number beyond the signed machine words is a binary64
number. -/
def scalar? : Json → Option Scalar
  | .bool value => some (.bool value)
  | .integer value =>
    some (if value < Text.signedLimit then .integer value else .number (.ofInt value))
  | .number value => some (.number value)
  | .text value => some (.text value)
  | _ => none

def scalar : Decoder Scalar :=
  Decoder.value.refine fun value =>
    match scalar? value with
    | some scalar => .ok scalar
    | none => .error (.noAlternative "Loose")

/-- Whether a field holds nothing but blanks. -/
def isEmpty : Scalar → Bool
  | .text value => Text.trim value == ""
  | _ => false

/-- A field that is left out, `null` or blank has no value; for others a rule says what it is. -/
def field {α : Type} (rule : Scalar → Except Refusal α) : Decoder (Option α) :=
  (Decoder.option scalar).refine fun given =>
    match given with
    | none => .ok none
    | some scalar =>
      if isEmpty scalar then .ok none
      else match rule scalar with
        | .ok value => .ok (some value)
        | .error refusal => .error (.refused refusal)

/-- The number of microseconds that a field gives. -/
def microsecondsOf : Scalar → Except Refusal Binary64
  | .bool value => .error (.notTime value)
  | .integer value => .ok (.ofInt value)
  | .number value => .ok value
  | .text value =>
    match Binary64.ofText? (Text.trim value) with
    | some number => .ok number
    | none => .error (.notNumber value)

/-- A time in microseconds is finite and not below zero. -/
def time (scalar : Scalar) : Except Refusal Binary64 := do
  let value ← microsecondsOf scalar
  if value.isTime then .ok value else .error (.timeOutOfRange value)

def index : Scalar → Except Refusal Int
  | .integer value => .ok value
  | .text value =>
    match Text.integer? (Text.trim value) with
    | some number => .ok number
    | none => .error (.notIndex value)
  | scalar => .error (.badIndex scalar)

/-- The word in a text, apart from letter case and blanks around it. -/
def word (text : String) : String := Text.lowercase (Text.trim text)

def switch : Scalar → Except Refusal Switch
  | .bool value => .ok (.ofBool value)
  | .integer value => .ok (.ofBool (value != 0))
  | .number value => .ok (.ofBool (!value.isZero))
  | .text value =>
    if ["on", "true", "1"].contains (word value) then .ok .on
    else if ["off", "false", "0"].contains (word value) then .ok .off
    else .error (.notSwitch value)

/-- A checkbox for the polarity is set when the pulse is inverted. -/
def polarity : Scalar → Except Refusal Polarity
  | .bool value => .ok (.ofBool value)
  | .integer value => .ok (.ofBool (value != 0))
  | .text value =>
    if ["inverted", "inv", "true", "1"].contains (word value) then .ok .inverted
    else if ["normal", "norm", "false", "0"].contains (word value) then .ok .normal
    else .error (.notPolarity value)
  | scalar => .error (.badPolarity scalar)

end DelayGenerator.Document
