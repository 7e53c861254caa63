/-
This file opens and closes the connection to the instrument.
-/

import DelayGenerator.Operation.Fetch

namespace DelayGenerator.Operation

/-- Opens the port, which gives a fault or takes effect at once. -/
def openPort (port : String) (baudRate : Nat) : Routine (Except Fault Unit) := do
  match ← Routine.find fun station => station.port.openFault? port baudRate with
  | some fault => return .error fault
  | none =>
    Routine.perform (.openPort port baudRate)
    return .ok ()

/-- Opens the port and asks for all settings. Whatever has been received before is forgotten, and
the counters start from zero. -/
def connect (port : String) (baudRate : Nat) : Routine (Except Fault Identity) :=
  Routine.cycle do
    Routine.perform .resetLink
    match ← openPort port baudRate with
    | .error fault =>
      Routine.perform .disconnected
      return .error fault
    | .ok () =>
      Routine.perform (.connected port baudRate)
      return .ok (← refresh).identity

def disconnect : Routine Unit := do
  Routine.perform .disconnected
  Routine.perform .closePort

/-- Connects as the settings say, or disconnects, and tells how it went. -/
def switchConnection (settings : Settings) (on : Bool) : Routine String := do
  if on then
    match ← connect settings.serial.port settings.serial.baudRate with
    | .ok identity =>
      return "connected to " ++ settings.serial.port ++ " (" ++ identity.identification ++ ")"
    | .error fault => return "Error: " ++ fault.message
  else
    disconnect
    return "disconnected"

/-- Stops the ticker and closes the connection. A ticker that still runs ends while others go on,
unless there is no grace period. -/
def shutdown (grace : Nat) : Routine Unit := do
  let isRunning ← Routine.find fun station => station.ticker.due.isSome
  Routine.perform .stopTicker
  if isRunning && grace != 0 then Routine.rest (.done ())
  disconnect

end DelayGenerator.Operation
