/-
This file carries out commands of the command line and says what they print.
-/

import DelayGenerator.Bench.Schedule
import DelayGenerator.Bench.Script
import DelayGenerator.CommandLine.Arguments
import DelayGenerator.Operation.Answer
import DelayGenerator.Settings.Load

namespace DelayGenerator.CommandLine

/-- What a run of the program leaves behind. -/
structure Outcome where
  code : Nat
  output : String
  errors : String
  deriving DecidableEq

/-- Why a command fails, with the fault behind it if there is one. -/
structure Failure where
  message : String
  cause : Option String
  deriving DecidableEq

/-- Moves every line in. -/
def indented (text : String) : List Char :=
  "    ".toList ++ text.toList.flatMap fun character =>
    if character == '\n' then '\n' :: "    ".toList else [character]

def Failure.text (failure : Failure) : String :=
  "Error: " ++ failure.message ++ match failure.cause with
    | none => ""
    | some cause => "\n\nCaused by:\n" ++ String.ofList (indented cause)

/-- The lines that a command prints, and why it fails if it does. -/
structure Printed where
  lines : List String
  failure : Option Failure
  deriving DecidableEq

namespace Printed

def ofLines (lines : List String) : Printed := ⟨lines, none⟩

def ofFailure (message : String) (cause : Option String) : Printed := ⟨[], some ⟨message, cause⟩⟩

def outcome (printed : Printed) : Outcome where
  code := if printed.failure.isSome then 1 else 0
  output := String.join (printed.lines.map fun line => line ++ "\n")
  errors := (printed.failure.map fun failure => failure.text ++ "\n").getD ""

end Printed

def failToConnect (settings : Settings) (fault : Fault) : Printed :=
  .ofFailure ("connecting to " ++ settings.serial.port) (some fault.message)

/-- Connects as the settings say. -/
def connect (settings : Settings) : Routine (Except Fault Identity) :=
  Operation.connect settings.serial.port settings.serial.baudRate

/-- Connects and goes on with a routine that needs the connection. -/
def whenConnected (settings : Settings) (routine : Routine Printed) : Routine Printed := do
  match ← connect settings with
  | .error fault => return failToConnect settings fault
  | .ok _ => routine

def reportCommit (report : CommitReport) : Printed where
  lines := [report.message]
  failure :=
    if report.isSuccess then none
    else some ⟨toString report.failed.length ++ " directive(s) not acknowledged", none⟩

/-- Commits the document in a file. -/
def commit (settings : Settings) (file : String) (document : Option String) : Routine Printed :=
  match document with
  | none => .done (.ofFailure ("reading " ++ file) (some "No such file or directory (os error 2)"))
  | some text =>
    match Document.decode text with
    | .error error => .done (.ofFailure (Fault.badDocument error).message (some error.message))
    | .ok snapshot =>
      whenConnected settings do
        return reportCommit (← Operation.commit settings.attempts snapshot.protocol)

def reset (settings : Settings) : Routine Printed :=
  whenConnected settings do
    if ← Operation.reset settings.attempts then
      return .ofLines ["reset complete; trigger is active"]
    else return .ofFailure "reset did not complete; trigger may be inactive" none

/-- Sends commands one after another and gives the line that is printed for each. -/
def sendAll : List String → Routine (List String)
  | [] => .done []
  | command :: rest => do
    let outcome ← Routine.send command
    let lines ← sendAll rest
    return (match outcome with
      | .ok reply => reply
      | .error fault => "Error: " ++ fault.message) :: lines

/-- Listens to the ticks for a number of seconds. -/
def watch (settings : Settings) (seconds : Nat) : Routine Printed := do
  let _ ← connect settings
  Routine.perform (.subscribe "watch" none)
  Routine.pause (1000 * seconds) (.done ())
  let heard ← Routine.find Station.heard
  return .ofLines (heard.map fun heard => heard.tick.event.compact)

/-- Carries out a command. Watching without an end is not possible here and shows nothing. -/
def perform (settings : Settings) (files : String → Option String) : Command → Routine Printed
  | .status => do
    let _ ← connect settings
    return .ofLines [Document.encode (← Operation.fetch)]
  | .commit file => commit settings file (files file)
  | .reset => reset settings
  | .send commands => whenConnected settings do return .ofLines (← sendAll commands)
  | .request path method => do
    let _ ← connect settings
    return .ofLines [← Operation.answer settings method path]
  | .watch seconds => watch settings (seconds.getD 0)

/-- A command, and the shutdown behind it. -/
def session (settings : Settings) (files : String → Option String) (command : Command) :
    Routine Printed := do
  let printed ← perform settings files command
  Operation.shutdown settings.grace
  return printed

/-- The bench of the program: a simulated instrument, or a port that is not there. -/
def bench (settings : Settings) (simulates : Bool) : Bench Script where
  station := .idle settings (if simulates then .ready else .absent)
  farEnd := Script.farEnd ⟨[], .instrument .factory⟩
  pace := ⟨0, none⟩
  deliveries := []
  sendLine := []
  cycleLine := []

/-- Runs a routine at a bench. -/
def runAt (bench : Bench Script) (routine : Routine Printed) : Printed :=
  match ((Traffic.start bench [routine]).finish Traffic.manyRounds).results with
  | some (_, printed) :: _ => printed
  | _ => .ofFailure "the command does not end" none

def SettingsFault.message : SettingsFault → String
  | .unreadable error =>
    "Configuration load error" ++ String.join (error.path.map fun name => " / " ++ name)
  | .invalid problem => (Fault.invalidSettings problem.detail).message

/-- The settings with what the command line says instead. -/
def Invocation.override (invocation : Invocation) (settings : Settings) : Settings :=
  settings.onSerial fun serial =>
    { serial with
      port := invocation.port.getD serial.port
      baudRate := invocation.baudRate.getD serial.baudRate }

/-- The settings of an invocation. -/
def Invocation.settings (invocation : Invocation) (files : String → Option String)
    (environment : List (String × String)) : Except Failure Settings := do
  let loaded ← (Settings.load (files invocation.config) environment).mapError fun fault =>
    ⟨"loading configuration from " ++ invocation.config, some (SettingsFault.message fault)⟩
  (invocation.override loaded).validate.mapError fun problem =>
    ⟨(Fault.invalidSettings problem.detail).message, none⟩

def Invocation.printed (invocation : Invocation) (files : String → Option String)
    (environment : List (String × String)) : Printed :=
  match invocation.settings files environment with
  | .error failure => ⟨[], some failure⟩
  | .ok settings =>
    runAt (bench settings invocation.simulates) (session settings files invocation.command)

def usage : String :=
  "Usage: dgctl [OPTIONS] <COMMAND>\n\nCommands: "
    ++ ", ".intercalate (commands.map Prod.fst) ++ ", help\n"

def UsageError.message : UsageError → String
  | .unknownOption argument => "unexpected argument '" ++ argument ++ "'"
  | .missingValue name => "a value is required for '--" ++ name ++ "'"
  | .unneededValue name => "'--" ++ name ++ "' takes no value"
  | .badValue name value => "invalid value '" ++ value ++ "' for '" ++ name ++ "'"
  | .repeated name => "'--" ++ name ++ "' cannot be used multiple times"
  | .unexpectedWord word => "unexpected argument '" ++ word ++ "'"
  | .unknownCommand word => "unrecognized subcommand '" ++ word ++ "'"
  | .missingCommand => "a command is required"
  | .missingWord command => "'" ++ command ++ "' requires an argument"

/-- How a run without a command ends. -/
def Ending.outcome : Ending → Outcome
  | .help => ⟨0, usage, ""⟩
  | .version => ⟨0, "dgctl 0.1.0\n", ""⟩
  | .wrong error => ⟨2, "", "error: " ++ error.message ++ "\n\n" ++ usage⟩

/-- The files that a run reads. -/
def wantedFiles (arguments : List String) : List String :=
  match parse arguments with
  | .error _ => []
  | .ok invocation =>
    invocation.config :: match invocation.command with
      | .commit file => [file]
      | _ => []

/-- Runs the program on arguments, with the texts of files and with environment variables. -/
def run (arguments : List String) (files : String → Option String)
    (environment : List (String × String)) : Outcome :=
  match parse arguments with
  | .error ending => ending.outcome
  | .ok invocation => (invocation.printed files environment).outcome

end DelayGenerator.CommandLine
