/-
This file names what can go wrong between a caller and the instrument.
-/

import DelayGenerator.Json.Error

namespace DelayGenerator

inductive Fault where
  | notConnected
  | writeTimedOut (command : String)
  | replyTimedOut (command : String)
  | wokenWithoutLine (command : String)
  | malformedReply (command reply : String)
  | transport (detail : String)
  | invalidSettings (detail : String)
  | badDocument (error : Json.Error)
  | unknownRequest (path : String)
  deriving DecidableEq

namespace Fault

def message : Fault → String
  | notConnected => "Serial port not connected"
  | writeTimedOut command => "Timed out writing command '" ++ command ++ "' to the transport"
  | replyTimedOut command => "No reply to '" ++ command ++ "' within the wait bound"
  | wokenWithoutLine command =>
    "Reply signal fired for '" ++ command ++ "' but the reply queue was empty"
  | malformedReply command reply => "Malformed reply to '" ++ command ++ "': '" ++ reply ++ "'"
  | transport detail => "Transport error: " ++ detail
  | invalidSettings detail => "Configuration validation error: " ++ detail
  | badDocument error => "JSON error: " ++ error.message
  | unknownRequest path => "Unknown request: " ++ path

/-- Whether the exchange itself failed, as opposed to its content. -/
def isLinkFailure : Fault → Bool
  | notConnected => true
  | writeTimedOut _ => true
  | replyTimedOut _ => true
  | wokenWithoutLine _ => true
  | _ => false

end Fault

end DelayGenerator
