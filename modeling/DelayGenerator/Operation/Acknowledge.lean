/-
This file sends directives until they are acknowledged.
-/

import DelayGenerator.Bench.Routine
import DelayGenerator.Pulse.Directive

namespace DelayGenerator.Operation

/-- Sends a command up to a number of times, until the reply is the expected one. A lost connection
ends the attempts. -/
def attempt (command expected : String) : (attempts : Nat) → Routine Bool
  | 0 => .done false
  | attempts + 1 =>
    .ask command fun
      | .ok reply =>
        if reply == expected then .done true else attempt command expected attempts
      | .error .notConnected => .done false
      | .error _ => attempt command expected attempts

/-- Sends a command until the reply is the expected one. There is at least one attempt, unless the
port is closed. -/
def sendExpect (command expected : String) (attempts : Nat) : Routine Bool :=
  .look fun station =>
    if station.port.isOpen then attempt command expected (max attempts 1) else .done false

/-- Sends a directive until it is acknowledged. -/
def acknowledge (attempts : Nat) (directive : Directive) : Routine Bool :=
  sendExpect directive.text acknowledgement attempts

/-- Tries all directives, whatever becomes of them, and gives those that are not acknowledged. -/
def tryAll (attempts : Nat) : List Directive → Routine (List Directive)
  | [] => .done []
  | directive :: rest => do
    let accepted ← acknowledge attempts directive
    let failed ← tryAll attempts rest
    return if accepted then failed else directive :: failed

/-- Tries directives up to the first one that is not acknowledged, and tells whether there is
none. -/
def requireAll (attempts : Nat) : List Directive → Routine Bool
  | [] => .done true
  | directive :: rest => do
    if ← acknowledge attempts directive then requireAll attempts rest else return false

end DelayGenerator.Operation
