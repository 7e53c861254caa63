/-
This file runs the routines of callers up to the points where they have to wait.
-/

import DelayGenerator.Bench.Basic

namespace DelayGenerator

/-- Where a caller stands. -/
inductive Caller (α : Type) where
  | ready (routine : Routine α)
  | asleep (wake : Nat) (routine : Routine α)
  /-- Stands in line to exchange a command. -/
  | queued (command : String) (next : Except Fault String → Routine α)
  | writing (command : String) (finish : Nat) (result : Except Fault Unit)
      (next : Except Fault String → Routine α)
  | awaiting (command : String) (deadline : Nat) (next : Except Fault String → Routine α)
  | transmitting (bytes : List UInt8) (finish : Nat) (result : Except Fault Unit)
      (next : Except Fault Unit → Routine α)
  /-- Stands in line to run a cycle. -/
  | claiming (routine : Routine α)
  | finished (time : Nat) (value : α)

namespace Caller

variable {α σ : Type}

def isFinished : Caller α → Bool
  | finished _ _ => true
  | _ => false

/-- What a finished caller has found, and when. -/
def result? : Caller α → Option (Nat × α)
  | finished time value => some (time, value)
  | _ => none

/-- The time at which a caller goes on, whatever the others do. -/
def deadline? : Caller α → Option Nat
  | asleep wake _ => some wake
  | writing _ finish _ _ => some finish
  | awaiting _ deadline _ => some deadline
  | transmitting _ finish _ _ => some finish
  | _ => none

/-- Whether a caller, known by its number, can go on now. -/
def canGoOn (bench : Bench σ) (number : Nat) : Caller α → Bool
  | ready _ => true
  | asleep wake _ => wake ≤ bench.clock
  | queued _ _ => bench.sendLine.head? == some number
  | writing _ finish _ _ => finish ≤ bench.clock
  | awaiting _ deadline _ => bench.station.link.isWoken || deadline ≤ bench.clock
  | transmitting _ finish _ _ => finish ≤ bench.clock
  | claiming _ => bench.cycleLine.head? == some number
  | finished _ _ => false

/-- Runs a routine until it is done or has to wait. -/
def run (number : Nat) : Routine α → Bench σ → Bench σ × Caller α
  | .done value, bench => (bench, finished bench.clock value)
  | .look next, bench => run number (next bench.station) bench
  | .act act next, bench => run number next (bench.onStation (Station.perform number act))
  | .ask command next, bench =>
    let command := Text.stripLineEnd command
    if !bench.isOpen then run number (next (.error .notConnected)) bench
    else if bench.sendLine.isEmpty then
      match { bench with sendLine := [number] }.begin number command with
      | (bench, .ended outcome) => run number (next outcome) bench
      | (bench, .writing finish result) => (bench, writing command finish result next)
      | (bench, .awaiting deadline) => (bench, awaiting command deadline next)
    else ({ bench with sendLine := bench.sendLine ++ [number] }, queued command next)
  | .transmit bytes bound next, bench =>
    match bench.startWrite bound with
    | (bench, .failed fault) => run number (next (.error fault)) bench
    | (bench, .ends finish result) =>
      if finish ≤ bench.clock then
        run number (next result) (bench.endTransmission number bytes result)
      else (bench, transmitting bytes finish result next)
  | .pause duration next, bench =>
    if duration == 0 then run number next bench
    else (bench, asleep (bench.clock + duration) next)
  | .rest next, bench => (bench, ready next)
  | .claim next, bench =>
    if bench.cycleLine.isEmpty then
      run number next ({ bench with cycleLine := [number] }.record (.claimed number))
    else ({ bench with cycleLine := bench.cycleLine ++ [number] }, claiming next)
  | .release next, bench =>
    run number next ({ bench with cycleLine := bench.cycleLine.tail }.record (.released number))

/-- Goes on from where an exchange has come to. -/
def follow (number : Nat) (command : String) (next : Except Fault String → Routine α) :
    Bench σ × Stage → Bench σ × Caller α
  | (bench, .ended outcome) => run number (next outcome) bench
  | (bench, .writing finish result) => (bench, writing command finish result next)
  | (bench, .awaiting deadline) => (bench, awaiting command deadline next)

/-- Goes on from where the caller stands. -/
def goOn (number : Nat) (bench : Bench σ) : Caller α → Bench σ × Caller α
  | ready routine => run number routine bench
  | asleep _ routine => run number routine bench
  | queued command next => follow number command next (bench.begin number command)
  | writing command _ result next =>
    follow number command next (bench.endWrite number command result)
  | awaiting command _ next => follow number command next (bench.takeReply number command)
  | transmitting bytes _ result next =>
    run number (next result) (bench.endTransmission number bytes result)
  | claiming routine => run number routine (bench.record (.claimed number))
  | finished time value => (bench, finished time value)

end Caller

end DelayGenerator
