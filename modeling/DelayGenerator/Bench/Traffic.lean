/-
This file lets callers and deliveries take turns at the bench. Any order of moves is possible,
except that time passes only when nobody can go on.
-/

import DelayGenerator.Bench.Caller

namespace DelayGenerator

/-- The callers are known by their places in the list. -/
structure Traffic (α σ : Type) where
  bench : Bench σ
  callers : List (Caller α)

/-- What can happen next. -/
inductive Move where
  /-- A caller goes on. -/
  | turn (caller : Nat)
  /-- The next chunk of a delivery comes in. -/
  | deliver (index : Nat)
  | tick
  /-- Time passes up to the next instant at which something is due. -/
  | elapse
  deriving DecidableEq

def Delivery.isDue (delivery : Delivery) (now : Nat) : Bool := delivery.due ≤ now

namespace Bench

variable {σ : Type}

/-- Whether the delivery at an index is due. -/
def canDeliver (bench : Bench σ) (index : Nat) : Bool :=
  match bench.deliveries[index]? with
  | some delivery => delivery.isDue bench.clock
  | none => false

/-- The next chunk of the delivery at an index comes in. A delivery of which more is to come moves
to the front. -/
def deliver (index : Nat) (bench : Bench σ) : Bench σ :=
  match bench.deliveries[index]? with
  | some ⟨due, chunk :: next :: rest⟩ =>
    { bench with deliveries := ⟨due, next :: rest⟩ :: bench.deliveries.eraseIdx index }.onStation
      (Station.receive chunk)
  | some ⟨_, [chunk]⟩ =>
    { bench with deliveries := bench.deliveries.eraseIdx index }.onStation (Station.receive chunk)
  | some ⟨_, []⟩ => { bench with deliveries := bench.deliveries.eraseIdx index }
  | none => bench

def canTick (bench : Bench σ) : Bool := bench.station.ticker.isDue bench.clock

end Bench

namespace Traffic

variable {α σ : Type}

def clock (traffic : Traffic α σ) : Nat := traffic.bench.clock

/-- Callers begin with their routines. -/
def start (bench : Bench σ) (routines : List (Routine α)) : Traffic α σ :=
  ⟨bench, routines.map .ready⟩

def canTurn (traffic : Traffic α σ) (index : Nat) : Bool :=
  match traffic.callers[index]? with
  | some caller => caller.canGoOn traffic.bench index
  | none => false

/-- Whether something can happen before time passes. -/
def isBusy (traffic : Traffic α σ) : Bool :=
  (List.range traffic.callers.length).any traffic.canTurn
    || traffic.bench.deliveries.any (fun delivery => delivery.isDue traffic.clock)
    || traffic.bench.canTick

/-- All instants at which something is due. -/
def deadlines (traffic : Traffic α σ) : List Nat :=
  traffic.callers.filterMap Caller.deadline? ++ traffic.bench.deliveries.map Delivery.due
    ++ traffic.bench.station.ticker.due.toList

/-- The earliest instant at which something is due. -/
def nextDeadline? (traffic : Traffic α σ) : Option Nat :=
  match traffic.deadlines with
  | [] => none
  | first :: others => some (others.foldl min first)

def can (traffic : Traffic α σ) : Move → Bool
  | .turn caller => traffic.canTurn caller
  | .deliver index => traffic.bench.canDeliver index
  | .tick => traffic.bench.canTick
  | .elapse => !traffic.isBusy && traffic.nextDeadline?.isSome

def turn (index : Nat) (traffic : Traffic α σ) : Traffic α σ :=
  match traffic.callers[index]? with
  | some caller =>
    let (bench, next) := caller.goOn index traffic.bench
    ⟨bench, traffic.callers.set index next⟩
  | none => traffic

def onBench (change : Bench σ → Bench σ) (traffic : Traffic α σ) : Traffic α σ :=
  { traffic with bench := change traffic.bench }

def setClock (time : Nat) (traffic : Traffic α σ) : Traffic α σ :=
  traffic.onBench fun bench => bench.onStation fun station => { station with clock := time }

def make (traffic : Traffic α σ) : Move → Traffic α σ
  | .turn caller => traffic.turn caller
  | .deliver index => traffic.onBench (Bench.deliver index)
  | .tick => traffic.onBench fun bench => bench.onStation Station.tick
  | .elapse => traffic.setClock (traffic.nextDeadline?.getD traffic.clock)

/-- One possible move leads from one state to another. -/
inductive Step (before : Traffic α σ) : Traffic α σ → Prop where
  | move (move : Move) (possible : before.can move) : Step before (before.make move)

/-- Possible moves lead from one state to another. -/
inductive Reaches (first : Traffic α σ) : Traffic α σ → Prop where
  | start : Reaches first first
  | next {middle last : Traffic α σ} (reached : Reaches first middle) (step : middle.Step last) :
      Reaches first last

end Traffic

end DelayGenerator
