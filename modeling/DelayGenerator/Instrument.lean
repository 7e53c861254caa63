/-
This file simulates the instrument: it keeps the settings that commands make and answers queries
from them.
-/

import DelayGenerator.Pulse.Directive
import DelayGenerator.Text.Blank

namespace DelayGenerator

/-- What the instrument remembers. -/
structure Instrument where
  outputs : Vector Output outputCount
  trigger : Switch
  period : Binary64
  keypadLocked : Bool
  deriving DecidableEq

namespace Instrument

/-- The settings of one output as the instrument leaves the factory. -/
def factoryOutput (index : Nat) : Output where
  delay := .ofInt (channel index) * .ofDecimal 1 (-5)
  width := microsecond
  polarity := .normal
  state := .off

def factory : Instrument where
  outputs := Vector.ofFn fun index => factoryOutput index.val
  trigger := .off
  period := Protocol.defaultInterval
  keypadLocked := true

/-- A command for one channel: the name of what it concerns, and its argument. A command with a
question mark at the end of the name and no argument asks, one with an argument sets. -/
structure Addressed where
  channel : Nat
  name : String
  argument : Option String
  deriving DecidableEq

/-- Reads `:PULSE`, a channel number, a colon, and a name with an argument behind the first space.
Blanks around the argument do not count. -/
def Addressed.ofText? (command : String) : Option Addressed := do
  let rest ← Text.after? ":PULSE" command
  let (number, tail) ← Text.splitAtFirst? (· == ':') rest.toList
  let channel ← Text.natural? Text.wordLimit (String.ofList number)
  match Text.splitAtFirst? (· == ' ') tail with
  | some (name, argument) =>
    some ⟨channel, String.ofList name, some (Text.trim (String.ofList argument))⟩
  | none => some ⟨channel, String.ofList tail, none⟩

def switchArgument? (argument : String) : Option Switch :=
  if argument == "ON" || argument == "1" then some .on
  else if argument == "OFF" || argument == "0" then some .off
  else none

def polarityArgument? (argument : String) : Option Polarity :=
  if argument == "INV" then some .inverted
  else if argument == "NORM" then some .normal
  else none

/-- A state is reported as a digit. -/
def switchReport : Switch → String
  | .on => "1"
  | .off => "0"

/-- What a command asks the system trigger to report or to become. -/
def onTrigger (instrument : Instrument) (name : String) (argument : Option String) :
    Option (Instrument × String) :=
  match name, argument with
  | "STATE?", none => some (instrument, switchReport instrument.trigger)
  | "PER?", none => some (instrument, instrument.period.scientific)
  | "STATE", some value =>
    (switchArgument? value).map fun state =>
      ({ instrument with trigger := state }, acknowledgement)
  | "PER", some value =>
    (Binary64.ofText? value).map fun period =>
      ({ instrument with period := period }, acknowledgement)
  | _, _ => none

/-- What a command asks one output to report or to become. -/
def onOutput (output : Output) (name : String) (argument : Option String) :
    Option (Output × String) :=
  match name, argument with
  | "STATE?", none => some (output, switchReport output.state)
  | "POL?", none => some (output, output.polarity.token)
  | "DELAY?", none => some (output, output.delay.scientific)
  | "WIDTH?", none => some (output, output.width.scientific)
  | "STATE", some value =>
    (switchArgument? value).map fun state => ({ output with state := state }, acknowledgement)
  | "POL", some value =>
    (polarityArgument? value).map fun polarity =>
      ({ output with polarity := polarity }, acknowledgement)
  | "DELAY", some value =>
    (Binary64.ofText? value).map fun delay => ({ output with delay := delay }, acknowledgement)
  | "WIDTH", some value =>
    (Binary64.ofText? value).map fun width => ({ output with width := width }, acknowledgement)
  | "SYNC", some _ => some (output, acknowledgement)
  | _, _ => none

/-- Channel 0 is the system trigger, the channels from 1 on are the outputs. -/
def onChannel (instrument : Instrument) (command : Addressed) : Option (Instrument × String) :=
  match command.channel with
  | 0 => instrument.onTrigger command.name command.argument
  | index + 1 =>
    if inRange : index < outputCount then
      (onOutput instrument.outputs[index] command.name command.argument).map fun (output, reply) =>
        ({ instrument with outputs := instrument.outputs.set index output }, reply)
    else none

/-- Carries out a command that the instrument knows. -/
def accept? (instrument : Instrument) (command : String) : Option (Instrument × String) :=
  if command == Query.identification.text then
    some (instrument, "BNC,565-8,SIM0001,2.4.0")
  else if command == Query.description.text then
    some (instrument, "T0, CHA, CHB, CHC, CHD, CHE, CHF, CHG, CHH")
  else if command == Directive.factoryReset.text then some (factory, acknowledgement)
  else if command == Directive.unlockKeypad.text then
    some ({ instrument with keypadLocked := false }, acknowledgement)
  else if command == ":SYST:KLOCK ON" then
    some ({ instrument with keypadLocked := true }, acknowledgement)
  else do instrument.onChannel (← Addressed.ofText? command)

/-- Every command is answered. One that is not known, or whose argument is not, changes nothing and
is answered `?`. -/
def answer (instrument : Instrument) (command : String) : Instrument × String :=
  (instrument.accept? command).getD (instrument, "?")

end Instrument

end DelayGenerator
