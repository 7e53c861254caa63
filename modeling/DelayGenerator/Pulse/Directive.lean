/-
This file holds the command language of the instrument: directives, which change it and are answered
`ok`, and queries, which are answered with a value.
-/

import DelayGenerator.Binary64.Notation
import DelayGenerator.Pulse.Basic

namespace DelayGenerator

def Switch.token : Switch → String
  | .on => "ON"
  | .off => "OFF"

def Polarity.token : Polarity → String
  | .normal => "NORM"
  | .inverted => "INV"

/-- The reply that accepts a directive. -/
def acknowledgement : String := "ok"

inductive Directive where
  | state (channel : Nat) (value : Switch)
  | polarity (channel : Nat) (value : Polarity)
  | delay (channel : Nat) (seconds : Binary64)
  | width (channel : Nat) (seconds : Binary64)
  | sync (channel : Nat) (source : String)
  | period (seconds : Binary64)
  | unlockKeypad
  | factoryReset
  deriving DecidableEq

namespace Directive

/-- The beginning of a command that addresses one channel. -/
def address (channel : Nat) : String := ":PULSE" ++ toString channel ++ ":"

def text : Directive → String
  | state channel value => address channel ++ "STATE " ++ value.token
  | polarity channel value => address channel ++ "POL " ++ value.token
  | delay channel seconds => address channel ++ "DELAY " ++ seconds.scientific
  | width channel seconds => address channel ++ "WIDTH " ++ seconds.scientific
  | sync channel source => address channel ++ "SYNC " ++ source
  | period seconds => address 0 ++ "PER " ++ seconds.scientific
  | unlockKeypad => ":SYST:KLOCK OFF"
  | factoryReset => "*RST"

/-- The channel of the system trigger. -/
def startTrigger : Directive := state 0 .on

/-- What sets one output. -/
def forOutput (channel : Nat) (output : Output) : List Directive :=
  [state channel output.state, polarity channel output.polarity, delay channel output.delay,
    width channel output.width]

/-- What sets the instrument to a protocol: every output, then the period, the keypad and the
trigger. -/
def ofProtocol (protocol : Protocol) : List Directive :=
  (protocol.outputs.toList.mapIdx fun index output => forOutput (channel index) output).flatten
    ++ [period protocol.interval, unlockKeypad, startTrigger]

/-- The layout after a factory reset: pulses of one microsecond in steps of ten. -/
def factoryLayout : List Directive :=
  ((List.range outputCount).map channel).flatMap fun channel =>
    [width channel microsecond, delay channel (.ofInt channel * .ofDecimal 1 (-5)),
      polarity channel .normal, state channel .on]

/-- The pulse that announces the trigger, on channel 5, and the start of the trigger. -/
def triggerChain : List Directive :=
  [sync 5 "CHA", width 5 microsecond, startTrigger]

/-- The simulated ion peak, an inverted pulse of four nanoseconds on channel 6. -/
def ionPeak : List Directive :=
  [sync 6 "CHD", state 6 .on, polarity 6 .inverted, width 6 (.ofDecimal 40 (-10)),
    delay 6 (.ofDecimal 18 (-7)), unlockKeypad]

end Directive

inductive Quantity where
  | state
  | width
  | delay
  | polarity
  deriving DecidableEq

def Quantity.mnemonic : Quantity → String
  | .state => "STATE"
  | .width => "WIDTH"
  | .delay => "DELAY"
  | .polarity => "POL"

inductive Query where
  | identification
  | description
  | triggerState
  | period
  | output (channel : Nat) (quantity : Quantity)
  deriving DecidableEq

def Query.text : Query → String
  | .identification => "*IDN?"
  | .description => ":INST:FULL?"
  | .triggerState => Directive.address 0 ++ "STATE?"
  | .period => Directive.address 0 ++ "PER?"
  | .output channel quantity => Directive.address channel ++ quantity.mnemonic ++ "?"

end DelayGenerator
