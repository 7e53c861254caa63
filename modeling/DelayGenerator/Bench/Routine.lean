/-
This file says what a caller may do at the bench, one thing after another.
-/

import DelayGenerator.Bench.Station

namespace DelayGenerator

/-- What a caller still has to do. It goes on without interruption until it asks, pauses, transmits,
claims or rests. -/
inductive Routine (α : Type) where
  | done (value : α)
  /-- Looks at the station. -/
  | look (next : Station → Routine α)
  | act (act : Act) (next : Routine α)
  /-- Sends a command and waits for the reply. -/
  | ask (command : String) (next : Except Fault String → Routine α)
  /-- Writes bytes to the port and waits until they are written. -/
  | transmit (bytes : List UInt8) (bound : Nat) (next : Except Fault Unit → Routine α)
  | pause (duration : Nat) (next : Routine α)
  /-- Lets the others go on for a moment. -/
  | rest (next : Routine α)
  /-- Waits for the turn to run a cycle of exchanges that no other cycle interrupts. -/
  | claim (next : Routine α)
  | release (next : Routine α)

namespace Routine

/-- Goes on with the value. -/
def andThen {α β : Type} (routine : Routine α) (follow : α → Routine β) : Routine β :=
  match routine with
  | done value => follow value
  | look next => look fun station => (next station).andThen follow
  | act action next => act action (next.andThen follow)
  | ask command next => ask command fun outcome => (next outcome).andThen follow
  | transmit bytes bound next =>
    transmit bytes bound fun outcome => (next outcome).andThen follow
  | pause duration next => pause duration (next.andThen follow)
  | rest next => rest (next.andThen follow)
  | claim next => claim (next.andThen follow)
  | release next => release (next.andThen follow)

instance : Monad Routine where
  pure := done
  bind := andThen

/-- What a function finds at the station. -/
def find {α : Type} (read : Station → α) : Routine α := look fun station => done (read station)

def perform (action : Act) : Routine Unit := act action (done ())

/-- Sends a command and gives the reply. -/
def send (command : String) : Routine (Except Fault String) := ask command done

/-- Runs a routine as one cycle. -/
def cycle {α : Type} (routine : Routine α) : Routine α :=
  claim (routine.andThen fun value => release (done value))

end Routine

end DelayGenerator
