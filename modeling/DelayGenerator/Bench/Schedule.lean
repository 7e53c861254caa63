/-
This file fixes one order of moves: the callers go on one after another, then the ticker and the
deliveries have one turn each, and time passes when nothing else can happen.
-/

import DelayGenerator.Bench.Traffic

namespace DelayGenerator.Traffic

variable {α σ : Type}

/-- Makes a move if it is possible. -/
def attempt (traffic : Traffic α σ) (move : Move) : Traffic α σ :=
  if traffic.can move then traffic.make move else traffic

/-- Every caller that can goes on once. -/
def pass (traffic : Traffic α σ) : Traffic α σ :=
  (List.range traffic.callers.length).foldl (fun now caller => now.attempt (.turn caller)) traffic

/-- One chunk comes in of every delivery that is due, among `count` deliveries from an index on. A
delivery that is complete makes room for the next one. Those of which more is to come stand in the
opposite order afterwards, so the last one goes on first. -/
def deliverAll : (count index : Nat) → Traffic α σ → Traffic α σ
  | 0, _, traffic => traffic
  | count + 1, index, traffic =>
    let next := traffic.attempt (.deliver index)
    if next.bench.deliveries.length < traffic.bench.deliveries.length then
      deliverAll count index next
    else deliverAll count (index + 1) next

/-- The ticker and the deliveries have their turns. -/
def serve (traffic : Traffic α σ) : Traffic α σ :=
  deliverAll traffic.bench.deliveries.length 0 (traffic.attempt .tick)

def isFinished (traffic : Traffic α σ) : Bool := traffic.callers.all Caller.isFinished

/-- Goes on until all callers have finished, for a number of rounds at most. -/
def finish : (rounds : Nat) → Traffic α σ → Traffic α σ
  | 0, traffic => traffic
  | rounds + 1, traffic =>
    let passed := traffic.pass
    if passed.isFinished then passed
    else if passed.isBusy then finish rounds passed.serve
    else if passed.can .elapse then finish rounds (passed.make .elapse)
    else passed

/-- More rounds than the traffic of any program takes. -/
def manyRounds : Nat := Nat.pow 10 12

/-- What the callers have found, and when; a caller that has not finished has no result. -/
def results (traffic : Traffic α σ) : List (Option (Nat × α)) :=
  traffic.callers.map Caller.result?

end DelayGenerator.Traffic
