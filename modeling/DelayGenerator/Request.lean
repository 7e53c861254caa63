/-
This file reads the requests that the browser front end sends.
-/

import DelayGenerator.Fault
import DelayGenerator.Text.Blank
import DelayGenerator.Text.Utf8

namespace DelayGenerator

inductive Request where
  | banner
  | status
  | commit (document : String)
  | submit (document : String)
  | set (document : String)
  | events
  deriving DecidableEq

namespace Request

def hexValue? (byte : UInt8) : Option UInt8 :=
  if 0x30 ≤ byte && byte ≤ 0x39 then some (byte - 0x30)
  else if 0x61 ≤ byte && byte ≤ 0x66 then some (byte - 0x61 + 10)
  else if 0x41 ≤ byte && byte ≤ 0x46 then some (byte - 0x41 + 10)
  else none

/-- The percent sign. -/
def percent : UInt8 := 0x25

/-- Replaces every percent sign with two hexadecimal digits behind it by the byte they denote. -/
def unescape : List UInt8 → List UInt8
  | first :: high :: low :: rest =>
    if first == percent then
      match hexValue? high, hexValue? low with
      | some highValue, some lowValue => (highValue * 16 + lowValue) :: unescape rest
      | _, _ => first :: unescape (high :: low :: rest)
    else first :: unescape (high :: low :: rest)
  | bytes => bytes

/-- The document in a request: escapes are undone on the bytes of the text. -/
def payload (escaped : String) : String :=
  Text.decodeUtf8 (unescape (Text.utf8 escaped))

/-- Reads the part of a path behind the question mark. -/
def ofQuery? (query : String) : Option Request :=
  if query == "banner" then some banner
  else if query == "status.json" then some status
  else if query == "events" then some events
  else ((Text.after? "commit.json=" query).map fun rest => commit (payload rest))
    <|> ((Text.after? "submit.text=" query).map fun rest => submit (payload rest))
    <|> ((Text.after? "set=" query).map fun rest => set (payload rest))

def ofPath? (path : String) : Option Request := do
  ofQuery? (← Text.after? "/dg/ctl?" path)

/-- Reads the path of a request. -/
def parse (path : String) : Except Fault Request :=
  match ofPath? path with
  | some request => .ok request
  | none => .error (.unknownRequest path)

end Request

end DelayGenerator
