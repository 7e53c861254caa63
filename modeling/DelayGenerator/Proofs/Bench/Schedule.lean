/-
This file shows that the fixed order of moves is one of the possible orders, so that what holds after
every run holds after the runs that the programs make.
-/

import DelayGenerator.Bench.Schedule

namespace DelayGenerator.Traffic

variable {α σ : Type}

theorem Reaches.trans {first middle last : Traffic α σ} (reached : first.Reaches middle)
    (later : middle.Reaches last) : first.Reaches last := by
  induction later with
  | start => exact reached
  | next _ step inductionHypothesis => exact .next inductionHypothesis step

/-- Makes moves one after another and leaves out those that are not possible. -/
def play (traffic : Traffic α σ) : List Move → Traffic α σ
  | [] => traffic
  | move :: moves => (traffic.attempt move).play moves

theorem reaches_attempt (traffic : Traffic α σ) (move : Move) :
    traffic.Reaches (traffic.attempt move) := by
  unfold attempt
  split
  next possible => exact .next .start (.move move possible)
  next => exact .start

theorem reaches_play (traffic : Traffic α σ) (moves : List Move) :
    traffic.Reaches (traffic.play moves) := by
  induction moves generalizing traffic with
  | nil => exact .start
  | cons move moves inductionHypothesis =>
      exact (traffic.reaches_attempt move).trans (inductionHypothesis _)

theorem reaches_pass (traffic : Traffic α σ) : traffic.Reaches traffic.pass := by
  unfold pass
  generalize List.range traffic.callers.length = callers
  induction callers generalizing traffic with
  | nil => exact .start
  | cons caller callers inductionHypothesis =>
      exact (traffic.reaches_attempt (.turn caller)).trans (inductionHypothesis _)

theorem reaches_deliverAll (count index : Nat) (traffic : Traffic α σ) :
    traffic.Reaches (traffic.deliverAll count index) := by
  induction count generalizing index traffic with
  | zero => exact .start
  | succ count inductionHypothesis =>
      have delivered := traffic.reaches_attempt (.deliver index)
      unfold deliverAll
      dsimp only
      split
      · exact delivered.trans (inductionHypothesis _ _)
      · exact delivered.trans (inductionHypothesis _ _)

theorem reaches_serve (traffic : Traffic α σ) : traffic.Reaches traffic.serve :=
  (traffic.reaches_attempt .tick).trans (reaches_deliverAll _ _ _)

/-- The schedule of the programs makes possible moves only. -/
theorem reaches_finish (rounds : Nat) (traffic : Traffic α σ) :
    traffic.Reaches (traffic.finish rounds) := by
  induction rounds generalizing traffic with
  | zero => exact .start
  | succ rounds inductionHypothesis =>
      have passed := traffic.reaches_pass
      unfold finish
      dsimp only
      split
      · exact passed
      · split
        · exact passed.trans ((reaches_serve _).trans (inductionHypothesis _))
        · split
          next possible =>
            exact passed.trans (.trans (.next .start (.move .elapse possible)) (inductionHypothesis _))
          next => exact passed

end DelayGenerator.Traffic
