/-
This file describes what a document must look like and decodes it. A decoder reads the same shape
from a text and from a value; a text is read in one pass, so of several faults the first is named.
-/

import DelayGenerator.Json.Reader
import DelayGenerator.Text.Blank

namespace DelayGenerator.Json

/-- The two ways to decode one shape. -/
structure Decoder (α : Type) where
  fromText : (depth : Nat) → List Char → Except Error (α × List Char)
  fromValue : Json → Except Error α

/-- What a value is, for a message. -/
def found : Json → Found
  | null => .null
  | bool value => .bool value
  | integer value => .integer value
  | number value => .number value
  | text value => .text value
  | list _ => .list
  | record _ => .record

/-- Names what stands in a text instead of what is expected. Lists and records are not looked
into. -/
def foundInText (expected : String) (characters : List Char) : Error :=
  match characters with
  | [] => .endInValue
  | '[' :: _ => .wrongKind .list expected
  | '\x7b' :: _ => .wrongKind .record expected
  | _ =>
    match read depthLimit characters with
    | .ok (value, _) => .wrongKind value.found expected
    | .error error => error

namespace Decoder

/-- Accepts only some of the values. -/
def refine {α β : Type} (decoder : Decoder α) (accept : α → Except Error β) : Decoder β where
  fromText depth characters := do
    let (value, rest) ← decoder.fromText depth characters
    .ok (← accept value, rest)
  fromValue value := do accept (← decoder.fromValue value)

def text : Decoder String where
  fromText _ characters :=
    match skipSpace characters with
    | '"' :: rest => readText rest
    | start => .error (foundInText "a string" start)
  fromValue
    | .text value => .ok value
    | value => .error (.wrongKind value.found "a string")

def bool : Decoder Bool where
  fromText _ characters :=
    match skipSpace characters with
    | 't' :: rest => do .ok (true, ← expectWord ['r', 'u', 'e'] rest)
    | 'f' :: rest => do .ok (false, ← expectWord ['a', 'l', 's', 'e'] rest)
    | start => .error (foundInText "a boolean" start)
  fromValue
    | .bool value => .ok value
    | value => .error (.wrongKind value.found "a boolean")

/-- Any value. -/
def value : Decoder Json where
  fromText := read
  fromValue := .ok

/-- The word `null` stands for nothing. -/
def option {α : Type} (decoder : Decoder α) : Decoder (Option α) where
  fromText depth characters :=
    match skipSpace characters with
    | 'n' :: rest => do .ok (none, ← expectWord ['u', 'l', 'l'] rest)
    | start => do
      let (value, rest) ← decoder.fromText depth start
      .ok (some value, rest)
  fromValue
    | .null => .ok none
    | value => do .ok (some (← decoder.fromValue value))

/-- Reads the items of a list up to its closing bracket. -/
def itemsFromText {α : Type} (decoder : Decoder α) (depth : Nat) :
    (bound : Nat) → (isFirst : Bool) → List Char → Except Error (List α × List Char)
  | 0, _, _ => .error .endInList
  | bound + 1, isFirst, characters => do
    match ← nextItem? isFirst characters with
    | none => .ok ([], ← closeList characters)
    | some characters =>
      let (item, rest) ← decoder.fromText depth characters
      let (others, rest) ← itemsFromText decoder depth bound false rest
      .ok (item :: others, rest)

def itemsFromValues {α : Type} (decoder : Decoder α) : List Json → Except Error (List α)
  | [] => .ok []
  | item :: rest => do
    let value ← decoder.fromValue item
    .ok (value :: (← itemsFromValues decoder rest))

def list {α : Type} (decoder : Decoder α) : Decoder (List α) where
  fromText depth characters :=
    match skipSpace characters with
    | '[' :: rest =>
      if depth ≤ 1 then .error .tooDeep
      else decoder.itemsFromText (depth - 1) (rest.length + 1) true rest
    | start => .error (foundInText "a sequence" start)
  fromValue
    | .list items => decoder.itemsFromValues items
    | value => .error (.wrongKind value.found "a sequence")

end Decoder

/-- One field of a record: how its value is put into the record, and whether a record, or a list in
place of the record, may go without it. -/
structure Field (ρ : Type) where
  name : String
  optional : Bool
  optionalInList : Bool
  fromText : (depth : Nat) → List Char → ρ → Except Error (ρ × List Char)
  fromValue : Json → ρ → Except Error ρ

/-- A field with a decoder for its value. -/
def Field.of {ρ α : Type} (name : String) (decoder : Decoder α) (put : α → ρ → ρ) : Field ρ where
  name := name
  optional := true
  optionalInList := true
  fromText depth characters record := do
    let (value, rest) ← decoder.fromText depth characters
    .ok (put value record, rest)
  fromValue value record := do .ok (put (← decoder.fromValue value) record)

/-- The field without which there is no record. -/
def Field.required {ρ : Type} (field : Field ρ) : Field ρ :=
  { field with optional := false, optionalInList := false }

/-- The field that a list in place of the record must give. -/
def Field.requiredInList {ρ : Type} (field : Field ρ) : Field ρ :=
  { field with optionalInList := false }

/-- A record with named fields. A list of the values in the order of the fields denotes it too. -/
structure Layout (ρ : Type) where
  name : String
  fields : List (Field ρ)
  blank : ρ

namespace Layout

def field? {ρ : Type} (layout : Layout ρ) (name : String) : Option (Field ρ) :=
  layout.fields.find? fun field => field.name == name

/-- Refuses a record without one of the fields that it must have. -/
def complete {ρ : Type} (layout : Layout ρ) (seen : List String) (form : ρ) : Except Error ρ :=
  match layout.fields.find? fun field => !field.optional && !seen.contains field.name with
  | some field => .error (.missingField field.name)
  | none => .ok form

/-- What a list of too few values should have been. -/
def expectedLength {ρ : Type} (layout : Layout ρ) : String :=
  "struct " ++ layout.name ++ " with " ++ toString layout.fields.length
    ++ (if layout.fields.length == 1 then " element" else " elements")

/-- Reads the members of a record. Members that no field names are skipped. -/
def membersFromText {ρ : Type} (layout : Layout ρ) (depth : Nat) :
    (bound : Nat) → (isFirst : Bool) → (seen : List String) → List Char → ρ →
      Except Error (ρ × List Char)
  | 0, _, _, _, _ => .error .endInRecord
  | bound + 1, isFirst, seen, characters, form => do
    match ← nextName? isFirst characters with
    | (none, rest) => .ok (← layout.complete seen form, rest)
    | (some name, rest) =>
      match layout.field? name with
      | none => layout.membersFromText depth bound false seen (← skip (← colon rest)) form
      | some field =>
        if seen.contains name then .error (.duplicateField name)
        else
          let (form, rest) ← field.fromText depth (← colon rest) form
          layout.membersFromText depth bound false (name :: seen) rest form

def membersFromValues {ρ : Type} (layout : Layout ρ) :
    (seen : List String) → List (String × Json) → ρ → Except Error ρ
  | seen, [], form => layout.complete seen form
  | seen, (name, value) :: rest, form =>
    match layout.field? name with
    | none => layout.membersFromValues seen rest form
    | some field =>
      if seen.contains name then .error (.duplicateField name)
      else do
        layout.membersFromValues (name :: seen) rest (← field.fromValue value form)

/-- Reads the values of the fields in order, behind the first `index` fields. -/
def itemsFromText {ρ : Type} (layout : Layout ρ) (depth : Nat) :
    (fields : List (Field ρ)) → (index : Nat) → List Char → ρ → Except Error (ρ × List Char)
  | [], _, characters, form => do .ok (form, ← closeList characters)
  | field :: fields, index, characters, form => do
    match ← nextItem? (index == 0) characters with
    | none =>
      if field.optionalInList then layout.itemsFromText depth fields (index + 1) characters form
      else .error (.wrongLength index layout.expectedLength)
    | some characters =>
      let (form, rest) ← field.fromText depth characters form
      layout.itemsFromText depth fields (index + 1) rest form

/-- Takes the values of the fields in order from a list of `length` values, behind the first `index`
fields. -/
def itemsFromValues {ρ : Type} (layout : Layout ρ) (length : Nat) :
    (fields : List (Field ρ)) → (index : Nat) → List Json → ρ → Except Error ρ
  | [], _, [], form => .ok form
  | [], _, _ :: _, _ => .error (.wrongLength length "fewer elements in array")
  | field :: fields, index, [], form =>
    if field.optionalInList then layout.itemsFromValues length fields (index + 1) [] form
    else .error (.wrongLength index layout.expectedLength)
  | field :: fields, index, value :: rest, form => do
    layout.itemsFromValues length fields (index + 1) rest (← field.fromValue value form)

def decoder {ρ : Type} (layout : Layout ρ) : Decoder ρ where
  fromText depth characters :=
    match skipSpace characters with
    | '[' :: rest =>
      if depth ≤ 1 then .error .tooDeep
      else layout.itemsFromText (depth - 1) layout.fields 0 rest layout.blank
    | '\x7b' :: rest =>
      if depth ≤ 1 then .error .tooDeep
      else layout.membersFromText (depth - 1) (rest.length + 1) true [] rest layout.blank
    | start => .error (foundInText ("struct " ++ layout.name) start)
  fromValue
    | .list items => layout.itemsFromValues items.length layout.fields 0 items layout.blank
    | .record members => layout.membersFromValues [] members layout.blank
    | value => .error (.wrongKind value.found ("struct " ++ layout.name))

end Layout

namespace Decoder

/-- Decodes a whole text. -/
def decodeText {α : Type} (decoder : Decoder α) (text : String) : Except Error α :=
  finish (decoder.fromText depthLimit text.toList)

/-- Decodes a value. Its records are taken in the order of the names. -/
def decodeValue {α : Type} (decoder : Decoder α) (value : Json) : Except Error α :=
  decoder.fromValue value.sorted

end Decoder

end DelayGenerator.Json
