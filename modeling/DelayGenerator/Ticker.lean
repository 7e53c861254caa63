/-
This file holds the periodic tick that tells listeners how the instrument is doing. All times are
milliseconds.
-/

import DelayGenerator.Json.Basic

namespace DelayGenerator

/-- What a tick reports: whether the instrument can be reached, and whether its trigger runs. -/
structure Status where
  isOpen : Bool
  isRunning : Bool
  deriving DecidableEq

/-- What listeners learn at a tick. -/
structure Tick where
  count : Nat
  status : Status
  deriving DecidableEq

/-- The document that the browser front end receives at a tick. -/
def Tick.event (tick : Tick) : Json :=
  .record [("state", .record
    [("state", .bool tick.status.isOpen), ("tick", .integer tick.count)])]

/-- A listener may drop a listener, by its name, at one of the ticks it hears. -/
structure Listener where
  id : Nat
  name : String
  drops : Option (Nat × String)
  deriving DecidableEq

/-- A ticker fires every period. It counts its ticks and numbers its listeners. -/
structure Ticker where
  period : Nat
  due : Option Nat
  count : Nat
  nextId : Nat
  listeners : List Listener
  deriving DecidableEq

namespace Ticker

/-- A new ticker fires one period from now for the first time. Without a period it never fires. -/
def start (period now : Nat) : Ticker where
  period := period
  due := if period == 0 then none else some (now + period)
  count := 0
  nextId := 0
  listeners := []

def isDue (ticker : Ticker) (now : Nat) : Bool :=
  match ticker.due with
  | some due => due ≤ now
  | none => false

def without (name : String) (listeners : List Listener) : List Listener :=
  listeners.filter fun listener => listener.name != name

/-- Adds a listener under the next number. It replaces the listener of the same name. -/
def subscribe (name : String) (drops : Option (Nat × String)) (ticker : Ticker) : Ticker :=
  { ticker with
    nextId := ticker.nextId + 1
    listeners := without name ticker.listeners ++ [⟨ticker.nextId, name, drops⟩] }

def hasListener (ticker : Ticker) (name : String) : Bool :=
  ticker.listeners.any fun listener => listener.name == name

def unsubscribe (name : String) (ticker : Ticker) : Ticker :=
  { ticker with listeners := without name ticker.listeners }

/-- Lets a listener act on a tick. -/
def react (count : Nat) (listeners : List Listener) (listener : Listener) : List Listener :=
  match listener.drops with
  | some (atCount, name) => if atCount == count then without name listeners else listeners
  | none => listeners

/-- The next tick under a given status. -/
def tick (status : Status) (ticker : Ticker) : Tick := ⟨ticker.count + 1, status⟩

/-- Fires. All listeners hear the tick in the order of their numbers, also one that another listener
drops at this tick. -/
def fire (ticker : Ticker) : Ticker :=
  { ticker with
    due := ticker.due.map (· + ticker.period)
    count := ticker.count + 1
    listeners := ticker.listeners.foldl (react (ticker.count + 1)) ticker.listeners }

/-- How often the ticker fires before a time. -/
def firingsBefore (time : Nat) (ticker : Ticker) : Nat :=
  match ticker.due with
  | some due => if due < time then (time - 1 - due) / ticker.period + 1 else 0
  | none => 0

/-- A stopped ticker never fires again. -/
def stop (ticker : Ticker) : Ticker := { ticker with due := none }

end Ticker

/-- What a listener has heard. -/
structure Heard where
  name : String
  tick : Tick
  deriving DecidableEq

/-- What the listeners hear when the ticker fires. -/
def Ticker.hearing (status : Status) (ticker : Ticker) : List Heard :=
  ticker.listeners.map fun listener => ⟨listener.name, ticker.tick status⟩

/-- A ticker with the clock that drives it and the status that it reports. -/
structure TickerRun where
  clock : Nat
  status : Status
  ticker : Ticker
  deriving DecidableEq

namespace TickerRun

def start (period : Nat) : TickerRun := ⟨0, ⟨false, false⟩, .start period 0⟩

/-- Fires a number of times and gives all that listeners hear. -/
def fireTimes (status : Status) : Nat → Ticker → Ticker × List Heard
  | 0, ticker => (ticker, [])
  | count + 1, ticker =>
    let (last, heard) := fireTimes status count ticker.fire
    (last, ticker.hearing status ++ heard)

/-- Lets time pass. A tick that is due at the very end is left to the next pass of time. -/
def advance (duration : Nat) (run : TickerRun) : TickerRun × List Heard :=
  let clock := run.clock + duration
  let (ticker, heard) := fireTimes run.status (run.ticker.firingsBefore clock) run.ticker
  (⟨clock, run.status, ticker⟩, heard)

end TickerRun

end DelayGenerator
