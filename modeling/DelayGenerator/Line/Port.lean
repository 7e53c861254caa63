/-
This file holds the port that commands are written to, with the ways in which it can fail. All times
are milliseconds.
-/

import DelayGenerator.Fault
import DelayGenerator.Text.Duration

namespace DelayGenerator

/-- Why a port does not open. -/
inductive OpenRefusal where
  | noDevice
  | blocked
  deriving DecidableEq

def OpenRefusal.detail (port : String) (baudRate : Nat) : OpenRefusal → String
  | noDevice => "No such file or directory for tty device '" ++ port ++ "'"
  | blocked => "cannot open '" ++ port ++ "' at " ++ toString baudRate

structure Port where
  isOpen : Bool
  refusal : Option OpenRefusal
  failsWrites : Bool
  /-- Whether the port closes just before a write. -/
  dropsOnWrite : Bool
  /-- How long a write takes. A write that takes no definite time never ends by itself. -/
  writeTime : Option Nat
  deriving DecidableEq

/-- How a write goes on: it has failed, or it ends at a time with a result. -/
inductive WriteCourse where
  | failed (fault : Fault)
  | ends (time : Nat) (result : Except Fault Unit)

namespace Port

/-- A port that opens and passes everything on at once. -/
def ready : Port where
  isOpen := false
  refusal := none
  failsWrites := false
  dropsOnWrite := false
  writeTime := some 0

/-- A port that is not there. -/
def absent : Port := { ready with refusal := some .noDevice }

/-- Why opening fails now, if it does. -/
def openFault? (port : Port) (name : String) (baudRate : Nat) : Option Fault :=
  port.refusal.map fun refusal => .transport (refusal.detail name baudRate)

/-- The port once a write has been asked of it. -/
def touched (port : Port) : Port :=
  if port.dropsOnWrite && !port.failsWrites then { port with isOpen := false } else port

/-- How a write that starts now goes on. A write that takes longer than its bound fails then. -/
def write (port : Port) (now bound : Nat) : WriteCourse :=
  if port.failsWrites then .failed (.transport "broken pipe")
  else if !port.touched.isOpen then .failed .notConnected
  else
    let tooLong : WriteCourse :=
      .ends (now + bound) (.error (.transport ("mock write exceeded " ++ Text.duration bound)))
    match port.writeTime with
    | some duration => if duration ≤ bound then .ends (now + duration) (.ok ()) else tooLong
    | none => tooLong

end Port

end DelayGenerator
