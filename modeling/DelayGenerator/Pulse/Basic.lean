/-
This file holds the model of the instrument: eight pulse outputs, the system trigger and the
identity. All times are seconds.
-/

import DelayGenerator.Binary64.Decimal

namespace DelayGenerator

/-- Whether an output, or the system trigger, is enabled. -/
inductive Switch where
  | on
  | off
  deriving DecidableEq

def Switch.ofBool (enabled : Bool) : Switch := if enabled then .on else .off

def Switch.isOn (switch : Switch) : Bool := switch == .on

inductive Polarity where
  | normal
  | inverted
  deriving DecidableEq

def Polarity.ofBool (inverted : Bool) : Polarity := if inverted then .inverted else .normal

def Polarity.isInverted (polarity : Polarity) : Bool := polarity == .inverted

/-- The settings of one pulse output. The delay counts from the start of the pulse train. -/
structure Output where
  delay : Binary64
  width : Binary64
  polarity : Polarity
  state : Switch
  deriving DecidableEq

def Output.idle : Output := ⟨Binary64.zero false, Binary64.zero false, .normal, .off⟩

/-- How many pulse outputs the instrument has. -/
def outputCount : Nat := 8

/-- The pulse outputs with the state and the period of the system trigger. The output at index `i`
is channel `i + 1` of the instrument; its channel 0 is the system trigger. -/
structure Protocol where
  outputs : Vector Output outputCount
  state : Switch
  interval : Binary64
  deriving DecidableEq

def channel (index : Nat) : Nat := index + 1

/-- One millisecond between pulse trains. -/
def Protocol.defaultInterval : Binary64 := .ofDecimal 1 (-3)

def Protocol.idle : Protocol := ⟨Vector.replicate outputCount Output.idle, .off, defaultInterval⟩

structure Identity where
  identification : String
  description : String
  deriving DecidableEq

def Identity.unknown : Identity := ⟨"", ""⟩

/-- An instrument is known once it has answered the identification query. -/
def Identity.isKnown (identity : Identity) : Bool := identity.identification != ""

structure Snapshot where
  identity : Identity
  protocol : Protocol
  deriving DecidableEq

def Snapshot.idle : Snapshot := ⟨.unknown, .idle⟩

def microsecond : Binary64 := .ofDecimal 1 (-6)

/-- The output shown at an index while no instrument is connected: delays step by one microsecond
from 0.1, widths by 0.1, and every other output is inverted. -/
def Output.placeholder (index : Nat) : Output where
  delay := .ofInt index * microsecond + .ofDecimal 1 (-7)
  width := .ofInt (index + 1) * .ofDecimal 1 (-1) * microsecond
  polarity := .ofBool (index % 2 == 1)
  state := .off

/-- What is shown while no instrument is connected. -/
def Snapshot.placeholder : Snapshot where
  identity := ⟨"debug::IDN", "debug::inst::full"⟩
  protocol :=
    ⟨Vector.ofFn fun index => Output.placeholder index.val, .off, Protocol.defaultInterval⟩

end DelayGenerator
