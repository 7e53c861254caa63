/-
This file joins the station with the far end of the line and carries out exchanges. The callers that
want to exchange a command stand in line, and so do those that want to run a cycle: the first in the
line has the turn, and a caller that comes later goes to its end.
-/

import DelayGenerator.Bench.Routine
import DelayGenerator.Text.Utf8

namespace DelayGenerator

/-- The far end answers every command with lines, and may remember. -/
structure FarEnd (σ : Type) where
  state : σ
  respond : σ → String → σ × List String

/-- An answer takes some time, and may come in chunks of limited size. -/
structure Pace where
  latency : Nat
  chunkSize : Option Nat
  deriving DecidableEq

/-- An answer on its way, as the chunks that have not come in yet. -/
structure Delivery where
  due : Nat
  chunks : List (List UInt8)
  deriving DecidableEq

namespace Delivery

/-- Cuts bytes into chunks of a size, the first of which has room for `room` bytes. -/
def cut (size : Nat) : (room : Nat) → List UInt8 → List (List UInt8)
  | _, [] => []
  | room, byte :: rest =>
    if room ≤ 1 then [byte] :: cut size size rest
    else
      match cut size (room - 1) rest with
      | [] => [[byte]]
      | first :: others => (byte :: first) :: others

/-- The lines as they come over the wire. -/
def payload (lines : List String) : List UInt8 :=
  lines.flatMap fun line => Text.utf8 line ++ [0x0D, 0x0A]

/-- Without a chunk size all bytes come in one piece. -/
def chunksOf (size : Option Nat) (bytes : List UInt8) : List (List UInt8) :=
  match size with
  | some size => cut size size bytes
  | none => [bytes]

theorem flattenCut (size room : Nat) (bytes : List UInt8) :
    (cut size room bytes).flatten = bytes := by
  induction bytes generalizing room with
  | nil => rfl
  | cons byte rest inductionHypothesis =>
      by_cases isLast : room ≤ 1
      · simp [cut, isLast, inductionHypothesis]
      · have others := inductionHypothesis (room - 1)
        simp only [cut, isLast, if_false]
        split <;> simp_all

theorem flattenChunksOf (size : Option Nat) (bytes : List UInt8) :
    (chunksOf size bytes).flatten = bytes := by
  cases size <;> simp [chunksOf, flattenCut]

end Delivery

structure Bench (σ : Type) where
  station : Station
  farEnd : FarEnd σ
  pace : Pace
  deliveries : List Delivery
  /-- The callers that want to exchange a command. -/
  sendLine : List Nat
  /-- The callers that want to run a cycle. -/
  cycleLine : List Nat

/-- How far an exchange has come. -/
inductive Stage where
  | writing (finish : Nat) (result : Except Fault Unit)
  | awaiting (deadline : Nat)
  | ended (outcome : Except Fault String)

namespace Bench

variable {σ : Type}

def clock (bench : Bench σ) : Nat := bench.station.clock

def isOpen (bench : Bench σ) : Bool := bench.station.port.isOpen

def onStation (change : Station → Station) (bench : Bench σ) : Bench σ :=
  { bench with station := change bench.station }

def onLink (change : Link → Link) (bench : Bench σ) : Bench σ :=
  bench.onStation fun station => { station with link := change station.link }

def record (event : Event) (bench : Bench σ) : Bench σ := bench.onStation (Station.record event)

/-- The far end takes a command, and its answer sets out. -/
def transfer (caller : Nat) (command : String) (bench : Bench σ) : Bench σ :=
  let (state, lines) := bench.farEnd.respond bench.farEnd.state command
  let delivery : Delivery :=
    ⟨bench.clock + bench.pace.latency,
      Delivery.chunksOf bench.pace.chunkSize (Delivery.payload lines)⟩
  record (.wrote caller command lines)
    { bench with
      farEnd := { bench.farEnd with state := state }
      deliveries := if lines.isEmpty then bench.deliveries else bench.deliveries ++ [delivery] }

/-- The exchange of the first in the line ends, and the next one has the turn. -/
def conclude (caller : Nat) (command : String) (outcome : Except Fault QueuedLine)
    (bench : Bench σ) : Bench σ × Stage :=
  (record (.ended caller command outcome) { bench with sendLine := bench.sendLine.tail },
    .ended (outcome.map QueuedLine.text))

/-- Takes the first line as the reply. Without a line the wait has been in vain. -/
def takeReply (caller : Nat) (command : String) (bench : Bench σ) : Bench σ × Stage :=
  match bench.station.link.queue.first? with
  | some (line, _) => (bench.onLink Link.empty).conclude caller command (.ok line)
  | none =>
    if bench.station.link.isWoken then
      bench.conclude caller command (.error (.wokenWithoutLine command))
    else
      (bench.onLink Link.countReplyTimeout).conclude caller command
        (.error (.replyTimedOut command))

/-- Waits for a line, up to the bound. -/
def listen (caller : Nat) (command : String) (bench : Bench σ) : Bench σ × Stage :=
  let link := bench.station.link
  if link.isWoken || link.replyBound == 0 then bench.takeReply caller command
  else (bench, .awaiting (bench.clock + link.replyBound))

/-- A write that fails on an open port counts as one that took too long. -/
def failWrite (caller : Nat) (command : String) (fault : Fault) (bench : Bench σ) :
    Bench σ × Stage :=
  match fault with
  | .notConnected => bench.conclude caller command (.error .notConnected)
  | _ =>
    (bench.onLink Link.countWriteTimeout).conclude caller command
      (.error (.writeTimedOut command))

/-- The write of an exchange has ended. -/
def endWrite (caller : Nat) (command : String) (result : Except Fault Unit) (bench : Bench σ) :
    Bench σ × Stage :=
  match result with
  | .ok () => (bench.transfer caller command).listen caller command
  | .error fault => bench.failWrite caller command fault

/-- The port once a write has been asked of it, and how the write goes on. -/
def startWrite (bound : Nat) (bench : Bench σ) : Bench σ × WriteCourse :=
  (bench.onStation fun station => { station with port := station.port.touched },
    bench.station.port.write bench.clock bound)

/-- The first in the line begins its exchange: it discards the lines that came unasked and writes
the command. -/
def begin (caller : Nat) (command : String) (bench : Bench σ) : Bench σ × Stage :=
  let armed := (bench.record (.began caller command bench.station.link.queue.next)).onLink Link.arm
  match armed.startWrite armed.station.link.writeBound with
  | (bench, .failed fault) => bench.failWrite caller command fault
  | (bench, .ends finish result) =>
    if finish ≤ bench.clock then bench.endWrite caller command result
    else (bench, .writing finish result)

/-- Bytes that are written as such reach the far end as a command. -/
def endTransmission (caller : Nat) (bytes : List UInt8) (result : Except Fault Unit)
    (bench : Bench σ) : Bench σ :=
  match result with
  | .ok () => bench.transfer caller (Text.stripLineEnd (Text.decodeUtf8 bytes))
  | .error _ => bench

end Bench

end DelayGenerator
