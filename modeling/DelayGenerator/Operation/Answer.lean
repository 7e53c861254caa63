/-
This file answers the requests of the browser front end. Whatever happens, the answer is a text.
-/

import DelayGenerator.Document.Snapshot
import DelayGenerator.Operation.Commit
import DelayGenerator.Operation.Connect
import DelayGenerator.Request

namespace DelayGenerator

namespace Document

open Json (Decoder Layout)

/-- The texts among the members of a record. -/
def memberTexts (members : List (String × Json)) : List String :=
  members.filterMap fun
    | (_, .text value) => some value
    | _ => none

/-- The texts of a list that holds nothing else. -/
def itemTexts? : List Json → Option (List String)
  | [] => some []
  | .text value :: rest => (itemTexts? rest).map (value :: ·)
  | _ => none

/-- The commands in a list of texts, or in a record in the order of its names. -/
def commandsOf? : Json → Option (List String)
  | .list items => itemTexts? items
  | .record members => some (memberTexts (Json.sortMembers members))
  | _ => none

def commands : Decoder (List String) :=
  Decoder.value.refine fun value =>
    match commandsOf? value with
    | some commands => .ok commands
    | none => .error (.noAlternative "SubmitDoc")

structure Checkbox where
  id : Option String
  value : Option Bool
  deriving DecidableEq

def checkboxLayout : Layout Checkbox where
  name := "CheckboxDoc"
  blank := ⟨none, none⟩
  fields :=
    [.requiredInList (.of "id" (.option .text) fun value form => { form with id := value }),
      .requiredInList (.of "value" (.option .bool) fun value form => { form with value := value })]

def checkboxesLayout : Layout (List Checkbox) where
  name := "SetDoc"
  blank := []
  fields := [.of "checkbox" checkboxLayout.decoder.list fun value _ => value]

end Document

namespace Operation

def banner (identity : Identity) : String :=
  "<h2>BNC 565 V0.1.0 S/N " ++ identity.identification ++ "</h2>"

/-- The answer to a request that is none. -/
def unknownAnswer (method path : String) : String :=
  "dgctl -- unknown request(" ++ method ++ ", " ++ path ++ ")"

/-- Sends commands one after another and gives the reply of each. -/
def sendAll : List String → Routine (List String)
  | [] => .done []
  | command :: rest => do
    let outcome ← Routine.send command
    let replies ← sendAll rest
    return (match outcome with | .ok reply => reply | .error _ => "Error") :: replies

def answerSubmit (document : String) : Routine String :=
  match Document.commands.decodeText document with
  | .error error => .done error.message
  | .ok commands => do
    return "\n".intercalate (← sendAll (commands.filter fun command => command != ""))

def answerCommit (settings : Settings) (document : String) : Routine String :=
  match Document.decode document with
  | .error error => .done (Fault.badDocument error).message
  | .ok snapshot => do return (← commit settings.attempts snapshot.protocol).message

/-- Sets checkboxes one after another. There is one that has an effect. -/
def setAll (settings : Settings) : List Document.Checkbox → Routine String
  | [] => .done ""
  | ⟨some "switch-connect", some on⟩ :: rest => do
    let text ← switchConnection settings on
    return text ++ (← setAll settings rest)
  | _ :: rest => setAll settings rest

def answerSet (settings : Settings) (document : String) : Routine String :=
  match Document.checkboxesLayout.decoder.decodeText document with
  | .error _ => .done ""
  | .ok checkboxes => setAll settings checkboxes

/-- Carries out a request and answers it. -/
def answerRequest (settings : Settings) : Request → Routine String
  | .banner => do return banner (← Routine.find fun station => station.cache.identity)
  | .status => do return Document.encode (← fetch)
  | .events => .done "SSE"
  | .commit document => answerCommit settings document
  | .submit document => answerSubmit document
  | .set document => answerSet settings document

def answer (settings : Settings) (method path : String) : Routine String :=
  match Request.parse path with
  | .error _ => .done (unknownAnswer method path)
  | .ok request => answerRequest settings request

end Operation

end DelayGenerator
