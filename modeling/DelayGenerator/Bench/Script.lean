/-
This file scripts the far end of the line: rules answer the commands that they match, and an
instrument, or something simpler, answers the others.
-/

import DelayGenerator.Bench.Basic
import DelayGenerator.Instrument

namespace DelayGenerator

inductive Matching where
  | exactly
  | beginning
  | ending
  | containing
  | always
  deriving DecidableEq

/-- A rule passes over the first `skip` commands that it matches, and then answers the next ones, up
to a number of times if there is one. -/
structure Rule where
  matching : Matching
  text : String
  reply : List String
  skip : Nat
  times : Option Nat
  deriving DecidableEq

/-- What answers when no rule does. -/
inductive Fallback where
  | instrument (instrument : Instrument)
  | silent
  | echo
  | constant (line : String)

structure Script where
  rules : List Rule
  fallback : Fallback

namespace Rule

def isMatch (rule : Rule) (command : String) : Bool :=
  let pattern := rule.text.toList
  let characters := command.toList
  match rule.matching with
  | .exactly => pattern == characters
  | .beginning => pattern.isPrefixOf characters
  | .ending => pattern.isSuffixOf characters
  | .containing => Text.contains pattern characters
  | .always => true

def isSpent (rule : Rule) : Bool := rule.times == some 0

end Rule

namespace Script

/-- The rules after a command, and the reply of the first that answers it. -/
def tryRules (command : String) : List Rule → List Rule × Option (List String)
  | [] => ([], none)
  | rule :: rest =>
    if !rule.isMatch command || rule.isSpent then
      let (others, reply) := tryRules command rest
      (rule :: others, reply)
    else if rule.skip != 0 then
      let (others, reply) := tryRules command rest
      ({ rule with skip := rule.skip - 1 } :: others, reply)
    else ({ rule with times := rule.times.map (· - 1) } :: rest, some rule.reply)

def respondFallback (command : String) : Fallback → Fallback × List String
  | .instrument instrument =>
    let (next, reply) := instrument.answer command
    (.instrument next, [reply])
  | .silent => (.silent, [])
  | .echo => (.echo, [command])
  | .constant line => (.constant line, [line])

def respond (script : Script) (command : String) : Script × List String :=
  match tryRules command script.rules with
  | (rules, some reply) => ({ script with rules := rules }, reply)
  | (rules, none) =>
    let (fallback, reply) := respondFallback command script.fallback
    (⟨rules, fallback⟩, reply)

def farEnd (script : Script) : FarEnd Script := ⟨script, respond⟩

end Script

end DelayGenerator
