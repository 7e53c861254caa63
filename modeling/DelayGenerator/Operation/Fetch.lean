/-
This file asks the instrument for all its settings. A reply that cannot be read costs the setting
that was asked for and no other.
-/

import DelayGenerator.Bench.Routine
import DelayGenerator.Pulse.Reply
import DelayGenerator.Pulse.Directive

namespace DelayGenerator

/-- The queries for one output. -/
def Query.ofOutput (channel : Nat) : List Query :=
  [.output channel .state, .output channel .width, .output channel .delay,
    .output channel .polarity]

/-- The queries for all settings, in the order in which they are asked. -/
def Query.all : List Query :=
  [.identification, .description, .triggerState, .period]
    ++ ((List.range outputCount).map channel).flatMap Query.ofOutput

namespace Snapshot

/-- Changes the output of a channel. -/
def onOutput (target : Nat) (change : Output → Output) (snapshot : Snapshot) : Snapshot :=
  { snapshot with
    protocol := { snapshot.protocol with
      outputs := snapshot.protocol.outputs.mapIdx fun index output =>
        if channel index == target then change output else output } }

/-- The snapshot with the setting that a reply gives. -/
def answered (snapshot : Snapshot) (query : Query) (reply : String) : Except Fault Snapshot :=
  match query with
  | .identification => do
    let text ← Reply.check query.text reply
    .ok { snapshot with identity := { snapshot.identity with identification := text } }
  | .description => do
    let text ← Reply.check query.text reply
    .ok { snapshot with identity := { snapshot.identity with description := text } }
  | .triggerState => do
    let state ← Reply.switch query.text reply
    .ok { snapshot with protocol := { snapshot.protocol with state := state } }
  | .period => do
    let interval ← Reply.seconds query.text reply
    .ok { snapshot with protocol := { snapshot.protocol with interval := interval } }
  | .output channel .state => do
    let state ← Reply.switch query.text reply
    .ok (snapshot.onOutput channel fun output => { output with state := state })
  | .output channel .width => do
    let width ← Reply.seconds query.text reply
    .ok (snapshot.onOutput channel fun output => { output with width := width })
  | .output channel .delay => do
    let delay ← Reply.seconds query.text reply
    .ok (snapshot.onOutput channel fun output => { output with delay := delay })
  | .output channel .polarity => do
    let polarity ← Reply.polarity query.text reply
    .ok (snapshot.onOutput channel fun output => { output with polarity := polarity })

/-- The snapshot after an exchange. One that fails, or whose reply cannot be read, changes
nothing. -/
def note (snapshot : Snapshot) (query : Query) (outcome : Except Fault String) : Snapshot :=
  match outcome >>= snapshot.answered query with
  | .ok next => next
  | .error _ => snapshot

end Snapshot

namespace Operation

/-- Asks queries one after another. -/
def askAll : List Query → Snapshot → Routine Snapshot
  | [], snapshot => .done snapshot
  | query :: rest, snapshot =>
    .ask query.text fun outcome => askAll rest (snapshot.note query outcome)

/-- Asks for all settings, starting from the cached ones, and caches what comes of it. -/
def refresh : Routine Snapshot := do
  let cached ← Routine.find Station.cache
  let snapshot ← askAll Query.all cached
  Routine.perform (.store snapshot)
  return snapshot

/-- The settings of the instrument. Without a connection this is a placeholder. -/
def fetch : Routine Snapshot := do
  if ← Routine.find Station.isOpen then Routine.cycle refresh else return .placeholder

end Operation

end DelayGenerator
