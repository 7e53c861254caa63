/-
This file holds the client's end of the line: bytes become lines, lines wait in the queue, and the
exchange under way is woken by the first one. All times are milliseconds.
-/

import DelayGenerator.Line.Framer
import DelayGenerator.Line.ReplyQueue
import DelayGenerator.Settings.Basic

namespace DelayGenerator

/-- The bounds limit how long a write and the wait for a reply may take. The counters say how often
they have been reached. -/
structure Link where
  framer : Framer
  queue : ReplyQueue
  /-- Whether a line has been completed since the latest exchange began. -/
  isWoken : Bool
  writeBound : Nat
  replyBound : Nat
  writeTimeouts : Nat
  replyTimeouts : Nat
  deriving DecidableEq

namespace Link

def ofSettings (settings : SerialSettings) : Link where
  framer := .empty settings.maxLineBytes
  queue := .empty settings.replyQueueCapacity
  isWoken := false
  writeBound := settings.writeTimeout
  replyBound := settings.replyTimeout
  writeTimeouts := 0
  replyTimeouts := 0

/-- The lines that bytes complete. -/
def completed (link : Link) (bytes : List UInt8) : List String := (link.framer.feed bytes).2

/-- Takes bytes from the line. -/
def receive (link : Link) (bytes : List UInt8) : Link :=
  { link with
    framer := (link.framer.feed bytes).1
    queue := link.queue.pushAll (link.completed bytes)
    isWoken := link.isWoken || !(link.completed bytes).isEmpty }

/-- Begins an exchange: the lines that came unasked are discarded. -/
def arm (link : Link) : Link := { link with queue := link.queue.drain, isWoken := false }

/-- Ends an exchange that takes a reply: further lines are discarded. -/
def empty (link : Link) : Link := { link with queue := link.queue.drain }

def resetCounters (link : Link) : Link := { link with writeTimeouts := 0, replyTimeouts := 0 }

/-- Forgets what has been received and the counters. -/
def reset (link : Link) : Link :=
  { link.resetCounters with framer := link.framer.reset, queue := link.queue.drain }

def countWriteTimeout (link : Link) : Link :=
  { link with writeTimeouts := link.writeTimeouts + 1 }

def countReplyTimeout (link : Link) : Link :=
  { link with replyTimeouts := link.replyTimeouts + 1 }

end Link

end DelayGenerator
