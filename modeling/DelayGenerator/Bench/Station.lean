/-
This file holds the client's side of the bench: the port, the link, the cached model of the
instrument, the ticker and a journal of all that happens. All times are milliseconds.
-/

import DelayGenerator.Line.Link
import DelayGenerator.Line.Port
import DelayGenerator.Pulse.Basic
import DelayGenerator.Ticker

namespace DelayGenerator

/-- What is remembered of connecting: whether it succeeded last, and where it succeeded last. -/
structure Connection where
  isOpen : Bool
  port : String
  baudRate : Nat
  deriving DecidableEq

/-- What status pages are told of the connection. -/
structure ConnectionState where
  isOpen : Bool
  port : String
  baudRate : Nat
  writeTimeouts : Nat
  replyTimeouts : Nat
  deriving DecidableEq

/-- What a caller does at the station in one instant. -/
inductive Act where
  | openPort (name : String) (baudRate : Nat)
  | closePort
  | refuseOpen (refusal : Option OpenRefusal)
  | failWrites (fails : Bool)
  | dropOnWrite (drops : Bool)
  | setWriteTime (time : Option Nat)
  | receive (bytes : List UInt8)
  | resetLink
  | resetCounters
  | connected (name : String) (baudRate : Nat)
  | disconnected
  | store (snapshot : Snapshot)
  | subscribe (name : String) (drops : Option (Nat × String))
  | unsubscribe (name : String)
  | stopTicker
  | readCommands
  | readTicks
  deriving DecidableEq

/-- What the journal records. Callers are known by their numbers. -/
inductive Event where
  | did (caller : Nat) (act : Act)
  /-- A caller begins a cycle, or ends it. -/
  | claimed (caller : Nat)
  | released (caller : Nat)
  /-- A caller begins an exchange; lines with a number from `mark` on come after this. -/
  | began (caller : Nat) (command : String) (mark : Nat)
  /-- The far end has taken a command and answers it with lines. -/
  | wrote (caller : Nat) (command : String) (answer : List String)
  | ended (caller : Nat) (command : String) (outcome : Except Fault QueuedLine)
  /-- Bytes have come in and complete lines. -/
  | received (lines : List String)
  | ticked (tick : Tick) (heard : List Heard)

structure Entry where
  time : Nat
  event : Event

/-- The journal lists its entries from the latest to the first. -/
structure Station where
  clock : Nat
  port : Port
  link : Link
  connection : Connection
  cache : Snapshot
  ticker : Ticker
  journal : List Entry

namespace Station

/-- A station at which nothing has happened. -/
def idle (settings : Settings) (port : Port) : Station where
  clock := 0
  port := port
  link := .ofSettings settings.serial
  connection := ⟨false, "", 0⟩
  cache := .idle
  ticker := .start settings.tickPeriod 0
  journal := []

/-- Whether the instrument is connected and its port open. -/
def isOpen (station : Station) : Bool := station.connection.isOpen && station.port.isOpen

def connectionState (station : Station) : ConnectionState where
  isOpen := station.isOpen
  port := station.connection.port
  baudRate := station.connection.baudRate
  writeTimeouts := station.link.writeTimeouts
  replyTimeouts := station.link.replyTimeouts

def status (station : Station) : Status :=
  ⟨station.isOpen, station.cache.protocol.state.isOn⟩

def record (event : Event) (station : Station) : Station :=
  { station with journal := ⟨station.clock, event⟩ :: station.journal }

/-- Bytes come in from the line. -/
def receive (bytes : List UInt8) (station : Station) : Station :=
  record (.received (station.link.completed bytes))
    { station with link := station.link.receive bytes }

/-- What an act changes. -/
def apply (station : Station) : Act → Station
  | .openPort _ _ => { station with port := { station.port with isOpen := true } }
  | .closePort => { station with port := { station.port with isOpen := false } }
  | .refuseOpen refusal => { station with port := { station.port with refusal := refusal } }
  | .failWrites fails => { station with port := { station.port with failsWrites := fails } }
  | .dropOnWrite drops => { station with port := { station.port with dropsOnWrite := drops } }
  | .setWriteTime time => { station with port := { station.port with writeTime := time } }
  | .receive bytes => station.receive bytes
  | .resetLink => { station with link := station.link.reset }
  | .resetCounters => { station with link := station.link.resetCounters }
  | .connected name baudRate => { station with connection := ⟨true, name, baudRate⟩ }
  | .disconnected =>
    { station with connection := { station.connection with isOpen := false } }
  | .store snapshot => { station with cache := snapshot }
  | .subscribe name drops => { station with ticker := station.ticker.subscribe name drops }
  | .unsubscribe name => { station with ticker := station.ticker.unsubscribe name }
  | .stopTicker => { station with ticker := station.ticker.stop }
  | .readCommands => station
  | .readTicks => station

/-- Applies an act and records it. -/
def perform (caller : Nat) (act : Act) (station : Station) : Station :=
  record (.did caller act) (station.apply act)

/-- The ticker fires. -/
def tick (station : Station) : Station :=
  let status := station.status
  record (.ticked (station.ticker.tick status) (station.ticker.hearing status))
    { station with ticker := station.ticker.fire }

/-- The entries since the latest one with a property, from the latest to the first. -/
def since (property : Event → Bool) (station : Station) : List Event :=
  (station.journal.map Entry.event).takeWhile fun event => !property event

/-- The commands written since they were read last. -/
def commands (station : Station) : List String :=
  let isReading : Event → Bool
    | .did _ .readCommands => true
    | _ => false
  let command? : Event → Option String
    | .wrote _ command _ => some command
    | _ => none
  ((station.since isReading).filterMap command?).reverse

/-- What listeners have heard since this was read last. -/
def heard (station : Station) : List Heard :=
  let isReading : Event → Bool
    | .did _ .readTicks => true
    | _ => false
  let heard : Event → List Heard
    | .ticked _ heard => heard
    | _ => []
  (station.since isReading).reverse.flatMap heard

/-- How often the port has been opened. -/
def opens (station : Station) : Nat :=
  let isOpening : Event → Bool
    | .did _ (.openPort _ _) => true
    | _ => false
  (station.journal.map Entry.event).countP isOpening

end Station

end DelayGenerator
