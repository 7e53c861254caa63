/-
This file reads the arguments of the command line: options with values, flags, a command, and the
words that belong to the command.
-/

import DelayGenerator.Text.Blank
import DelayGenerator.Text.Numeral

namespace DelayGenerator.CommandLine

inductive UsageError where
  | unknownOption (argument : String)
  | missingValue (name : String)
  | unneededValue (name : String)
  | badValue (name value : String)
  | repeated (name : String)
  | unexpectedWord (word : String)
  | unknownCommand (word : String)
  | missingCommand
  | missingWord (command : String)
  deriving DecidableEq

/-- Why the arguments lead to no command. -/
inductive Ending where
  | help
  | version
  | wrong (error : UsageError)
  deriving DecidableEq

/-- One part of the command line. A part that is wrong is the last one. -/
inductive Part where
  | option (name value : String)
  | flag (name : String)
  | word (text : String)
  | wrong (error : UsageError)
  deriving DecidableEq

/-- The names that options and flags may have, and the letters of the short flags. -/
structure Grammar where
  options : List String
  flags : List String
  letters : List (Char × String)

/-- The options and flags that may stand before the command or behind it. -/
def commonOptions : List String := ["config", "port", "baud"]

def Grammar.beforeCommand : Grammar :=
  ⟨commonOptions, ["simulate", "help", "version"], [('h', "help"), ('V', "version")]⟩

/-- What may stand behind a command that has options of its own. -/
def Grammar.behindCommand (ownOptions : List String) : Grammar :=
  ⟨commonOptions ++ ownOptions, ["simulate", "help"], [('h', "help")]⟩

/-- A single dash is a word. -/
def isOption (argument : String) : Bool :=
  match argument.toList with
  | '-' :: _ :: _ => true
  | _ => false

/-- Splits a text at its first equals sign. -/
def splitValue (characters : List Char) : String × Option String :=
  match Text.splitAtFirst? (· == '=') characters with
  | some (name, value) => (String.ofList name, some (String.ofList value))
  | none => (String.ofList characters, none)

/-- The short flags in one argument, up to a letter that is none. -/
def shortFlags (grammar : Grammar) (argument : String) : List Char → List Part
  | [] => []
  | letter :: rest =>
    match grammar.letters.lookup letter with
    | some name => .flag name :: shortFlags grammar argument rest
    | none => [.wrong (.unknownOption argument)]

/-- The parts that arguments give. Behind two dashes all arguments are words. With `stopsAtWord` the
first word and all behind it are left over. -/
def scan (grammar : Grammar) (stopsAtWord : Bool) : List String → List Part × List String
  | [] => ([], [])
  | argument :: rest =>
    match argument.toList with
    | ['-', '-'] => (rest.map .word, [])
    | '-' :: '-' :: long =>
      let (name, value) := splitValue long
      if grammar.flags.contains name then
        if value.isSome then ([.wrong (.unneededValue name)], [])
        else
          let (parts, left) := scan grammar stopsAtWord rest
          (.flag name :: parts, left)
      else if grammar.options.contains name then
        match value with
        | some value =>
          let (parts, left) := scan grammar stopsAtWord rest
          (.option name value :: parts, left)
        | none =>
          match rest with
          | [] => ([.wrong (.missingValue name)], [])
          | next :: others =>
            if isOption next then ([.wrong (.missingValue name)], [])
            else
              let (parts, left) := scan grammar stopsAtWord others
              (.option name next :: parts, left)
      else ([.wrong (.unknownOption argument)], [])
    | '-' :: letter :: others =>
      let (parts, left) := scan grammar stopsAtWord rest
      (shortFlags grammar argument (letter :: others) ++ parts, left)
    | _ =>
      if stopsAtWord then ([], argument :: rest)
      else
        let (parts, left) := scan grammar stopsAtWord rest
        (.word argument :: parts, left)

/-- What has been given before the command or behind it. -/
structure Given where
  config : Option String
  port : Option String
  baudRate : Option Nat
  simulates : Bool
  method : Option String
  seconds : Option Nat
  words : List String
  deriving DecidableEq

def Given.nothing : Given := ⟨none, none, none, false, none, none, []⟩

/-- Words of a command: how many there may be, and whether they name files. -/
structure WordRule where
  limit : Option Nat
  areFiles : Bool
  deriving DecidableEq

namespace Given

/-- Fills a place that must be empty. -/
def once {α : Type} (name : String) (place : Option α) (value : α) : Except Ending (Option α) :=
  if place.isSome then .error (.wrong (.repeated name)) else .ok (some value)

def natural (name text : String) (limit : Nat) : Except Ending Nat :=
  match Text.natural? limit text with
  | some value => .ok value
  | none => .error (.wrong (.badValue name text))

def addOption (given : Given) (name value : String) : Except Ending Given := do
  match name with
  | "config" =>
    if value == "" then .error (.wrong (.badValue name value))
    else .ok { given with config := ← once name given.config value }
  | "port" => .ok { given with port := ← once name given.port value }
  | "baud" =>
    let baudRate ← natural name value Text.halfWordLimit
    .ok { given with baudRate := ← once name given.baudRate baudRate }
  | "method" => .ok { given with method := ← once name given.method value }
  | "seconds" =>
    let seconds ← natural name value Text.wordLimit
    .ok { given with seconds := ← once name given.seconds seconds }
  | _ => .error (.wrong (.unknownOption name))

def addFlag (given : Given) (name : String) : Except Ending Given :=
  match name with
  | "help" => .error .help
  | "version" => .error .version
  | "simulate" =>
    if given.simulates then .error (.wrong (.repeated name))
    else .ok { given with simulates := true }
  | _ => .error (.wrong (.unknownOption name))

def addWord (rule : WordRule) (given : Given) (word : String) : Except Ending Given :=
  if rule.limit == some given.words.length then .error (.wrong (.unexpectedWord word))
  else if rule.areFiles && word == "" then .error (.wrong (.badValue "file" word))
  else .ok { given with words := given.words ++ [word] }

/-- Takes the parts in order, up to one that ends the reading. -/
def addAll (rule : WordRule) : List Part → Given → Except Ending Given
  | [], given => .ok given
  | .option name value :: rest, given => do addAll rule rest (← given.addOption name value)
  | .flag name :: rest, given => do addAll rule rest (← given.addFlag name)
  | .word text :: rest, given => do addAll rule rest (← given.addWord rule text)
  | .wrong error :: _, _ => .error (.wrong error)

end Given

inductive Command where
  | status
  | commit (file : String)
  | reset
  | send (commands : List String)
  | request (path method : String)
  | watch (seconds : Option Nat)
  deriving DecidableEq

/-- The settings that the command line overrides, and the command. -/
structure Invocation where
  config : String
  port : Option String
  baudRate : Option Nat
  simulates : Bool
  command : Command
  deriving DecidableEq

/-- Where the settings are kept unless the command line says otherwise. -/
def defaultConfig : String := "config/dgctl.toml"

/-- The commands with their own options and the rules for their words. -/
def commands : List (String × List String × WordRule) :=
  [("status", [], ⟨some 0, false⟩), ("commit", [], ⟨some 1, true⟩), ("reset", [], ⟨some 0, false⟩),
    ("send", [], ⟨none, false⟩), ("request", ["method"], ⟨some 1, false⟩),
    ("watch", ["seconds"], ⟨some 0, false⟩)]

/-- The command that a name and what has been given behind it make. -/
def Given.command (given : Given) (name : String) : Except Ending Command :=
  match name, given.words with
  | "status", _ => .ok .status
  | "commit", file :: _ => .ok (.commit file)
  | "reset", _ => .ok .reset
  | "send", first :: others => .ok (.send (first :: others))
  | "request", path :: _ => .ok (.request path (given.method.getD "GET"))
  | "watch", _ => .ok (.watch given.seconds)
  | _, _ => .error (.wrong (.missingWord name))

/-- What has been given before a command holds unless it has been given behind it too. -/
def Given.invocation (before behind : Given) (command : Command) : Invocation where
  config := (behind.config <|> before.config).getD defaultConfig
  port := behind.port <|> before.port
  baudRate := behind.baudRate <|> before.baudRate
  simulates := behind.simulates || before.simulates
  command := command

/-- The command `help` may name a command. -/
def helpFor : List String → Ending
  | [] => .help
  | word :: _ =>
    if word == "help" || (commands.lookup word).isSome then .help
    else .wrong (.unknownCommand word)

/-- Reads the arguments of the command line. -/
def parse (arguments : List String) : Except Ending Invocation := do
  let (parts, left) := scan .beforeCommand true arguments
  let before ← Given.nothing.addAll ⟨some 0, false⟩ parts
  match left with
  | [] => .error (.wrong .missingCommand)
  | "help" :: rest => .error (helpFor rest)
  | name :: rest =>
    match commands.lookup name with
    | none => .error (.wrong (.unknownCommand name))
    | some (options, rule) =>
      let behind ← Given.nothing.addAll rule (scan (.behindCommand options) false rest).1
      .ok (before.invocation behind (← behind.command name))

end DelayGenerator.CommandLine
