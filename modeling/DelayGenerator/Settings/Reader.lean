/-
This file reads settings from a value. What the value does not give keeps its default, and names
that no setting has are ignored.
-/

import DelayGenerator.Json.Basic
import DelayGenerator.Settings.Basic
import DelayGenerator.Text.Numeral

namespace DelayGenerator

/-- What can be wrong with a source of settings. -/
inductive LoadProblem where
  /-- The text of the source cannot be read. -/
  | badText
  | wrongKind
  | outOfRange
  deriving DecidableEq

/-- A problem with the names that lead to it. -/
structure LoadError where
  problem : LoadProblem
  path : List String
  deriving DecidableEq

namespace Settings

/-- Says within which part an error lies. -/
def within {α : Type} (name : String) (reading : Except LoadError α) : Except LoadError α :=
  reading.mapError fun error => { error with path := name :: error.path }

def readText : Json → Except LoadError String
  | .text value => .ok value
  | _ => .error ⟨.wrongKind, []⟩

/-- Reads a whole number from zero up to a limit. -/
def readNatural (limit : Nat) : Json → Except LoadError Nat
  | .integer value =>
    if 0 ≤ value ∧ value ≤ limit then .ok value.toNat else .error ⟨.outOfRange, []⟩
  | _ => .error ⟨.wrongKind, []⟩

/-- A name and how its value is put into the settings. -/
structure Key where
  name : String
  read : Json → Settings → Except LoadError Settings

/-- A key with a reader for its value. -/
def Key.of {α : Type} (name : String) (read : Json → Except LoadError α)
    (put : α → Settings → Settings) : Key where
  name := name
  read value settings := (read value).map fun found => put found settings

/-- Reads the members of a record. -/
def readMembers (keys : List Key) :
    List (String × Json) → Settings → Except LoadError Settings
  | [], settings => .ok settings
  | (name, value) :: rest, settings => do
    match keys.find? fun key => key.name == name with
    | some key => readMembers keys rest (← within name (key.read value settings))
    | none => readMembers keys rest settings

/-- Reads the items of a list as the values of the keys in order, behind the first `index` keys. -/
def readItems : (keys : List Key) → (index : Nat) → List Json → Settings →
    Except LoadError Settings
  | [], _, _, settings => .ok settings
  | _ :: _, _, [], settings => .ok settings
  | key :: keys, index, value :: rest, settings => do
    readItems keys (index + 1) rest (← within (toString index) (key.read value settings))

/-- Reads a section: a record, or a list of the values in the order of the keys. -/
def readSection (keys : List Key) (value : Json) (settings : Settings) :
    Except LoadError Settings :=
  match value with
  | .record members => readMembers keys (Json.sortMembers members) settings
  | .list items => readItems keys 0 items settings
  | _ => .error ⟨.wrongKind, []⟩

def onSerial (change : SerialSettings → SerialSettings) (settings : Settings) : Settings :=
  { settings with serial := change settings.serial }

def applicationKeys : List Key :=
  [.of "log_level" readText fun value settings => { settings with logLevel := value }]

def serialKeys : List Key :=
  [.of "port" readText fun value => onSerial fun serial => { serial with port := value },
    .of "baud_rate" (readNatural Text.halfWordLimit) fun value =>
      onSerial fun serial => { serial with baudRate := value },
    .of "write_timeout_ms" (readNatural Text.wordLimit) fun value =>
      onSerial fun serial => { serial with writeTimeout := value },
    .of "reply_timeout_ms" (readNatural Text.wordLimit) fun value =>
      onSerial fun serial => { serial with replyTimeout := value },
    .of "max_line_bytes" (readNatural Text.wordLimit) fun value =>
      onSerial fun serial => { serial with maxLineBytes := value },
    .of "reply_queue_capacity" (readNatural Text.wordLimit) fun value =>
      onSerial fun serial => { serial with replyQueueCapacity := value }]

def commitKeys : List Key :=
  [.of "attempts" (readNatural Text.halfWordLimit) fun value settings =>
    { settings with attempts := value }]

def tickKeys : List Key :=
  [.of "period_ms" (readNatural Text.wordLimit) fun value settings =>
    { settings with tickPeriod := value }]

def shutdownKeys : List Key :=
  [.of "grace_ms" (readNatural Text.wordLimit) fun value settings =>
    { settings with grace := value }]

def sections : List Key :=
  [⟨"application", readSection applicationKeys⟩, ⟨"serial", readSection serialKeys⟩,
    ⟨"commit", readSection commitKeys⟩, ⟨"tick", readSection tickKeys⟩,
    ⟨"shutdown", readSection shutdownKeys⟩]

/-- The settings that a value gives. -/
def ofValue (value : Json) : Except LoadError Settings := readSection sections value defaults

end Settings

end DelayGenerator
