/-
This file sends a protocol to the instrument and resets the instrument.
-/

import DelayGenerator.Operation.Acknowledge
import DelayGenerator.Pulse.Report

namespace DelayGenerator.Operation

/-- Sends all directives of a protocol and reports those that are not acknowledged. -/
def sendProtocol (attempts : Nat) (protocol : Protocol) : Routine CommitReport := do
  let directives := Directive.ofProtocol protocol
  let failed ← tryAll attempts directives
  return ⟨false, directives.length, failed.map Directive.text⟩

/-- Sends a protocol. Without a connection nothing is sent. -/
def commit (attempts : Nat) (protocol : Protocol) : Routine CommitReport := do
  if ← Routine.find Station.isOpen then Routine.cycle (sendProtocol attempts protocol)
  else return .withoutConnection

/-- Resets the instrument, lays out its outputs and starts the trigger. The ion peak is set up only
once the trigger runs. -/
def restart (attempts : Nat) : Routine Bool := do
  if ← acknowledge attempts .factoryReset then
    let _ ← tryAll attempts Directive.factoryLayout
    if ← requireAll attempts Directive.triggerChain then
      let _ ← tryAll attempts Directive.ionPeak
      return true
    else return false
  else return false

/-- Resets a connected instrument and tells whether its trigger runs. -/
def reset (attempts : Nat) : Routine Bool := do
  if ← Routine.find Station.isOpen then Routine.cycle (restart attempts) else return false

end DelayGenerator.Operation
