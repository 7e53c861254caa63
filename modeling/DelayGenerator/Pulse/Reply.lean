/-
This file reads the replies to queries.
-/

import DelayGenerator.Fault
import DelayGenerator.Pulse.Basic
import DelayGenerator.Text.Blank

namespace DelayGenerator.Reply

/-- The reply without blanks around it. An empty reply and the error token `?` are refused. -/
def check (command reply : String) : Except Fault String :=
  match (Text.trim reply).toList with
  | [] => .error (.malformedReply command reply)
  | '?' :: _ => .error (.malformedReply command reply)
  | _ => .ok (Text.trim reply)

/-- The value that `read` finds in a checked reply. -/
def readWith {α : Type} (read : String → Option α) (command reply : String) : Except Fault α := do
  match read (← check command reply) with
  | some value => .ok value
  | none => .error (.malformedReply command reply)

/-- A time is finite and not below zero. -/
def time? (text : String) : Option Binary64 :=
  (Binary64.ofText? text).filter Binary64.isTime

/-- A switch is a word in any letter case or a number, where zero is off. -/
def switch? (text : String) : Option Switch :=
  if Text.lowercase text == "on" then some .on
  else if Text.lowercase text == "off" then some .off
  else (Text.integer? text).map fun value => Switch.ofBool (value != 0)

def polarity? (text : String) : Option Polarity :=
  let word := Text.uppercase text
  if word == "NORM" || word == "NORMAL" then some .normal
  else if word == "INV" || word == "INVERTED" then some .inverted
  else none

def seconds : String → String → Except Fault Binary64 := readWith time?

def switch : String → String → Except Fault Switch := readWith switch?

def polarity : String → String → Except Fault Polarity := readWith polarity?

end DelayGenerator.Reply
