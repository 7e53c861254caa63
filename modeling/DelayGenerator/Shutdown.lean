/-
This file ends background tasks: all of them are asked to stop, and those that still run when the
grace period ends are aborted. All times are milliseconds.
-/

namespace DelayGenerator

/-- What a task does: it may first wait until it is asked to stop. Then it runs for a while or for
ever, and at its end it may break off instead of returning. -/
structure TaskPlan where
  awaitsStop : Bool
  duration : Option Nat
  breaksOff : Bool
  deriving DecidableEq

inductive TaskState where
  | running
  | returned
  | brokenOff
  | aborted
  deriving DecidableEq

structure BackgroundTask where
  plan : TaskPlan
  start : Nat
  state : TaskState
  deriving DecidableEq

namespace BackgroundTask

def isRunning (task : BackgroundTask) : Bool := task.state == .running

/-- When a task comes to its own end, given when the stop was asked for. -/
def finish? (stopped : Option Nat) (task : BackgroundTask) : Option Nat := do
  let begins ← if task.plan.awaitsStop then stopped.map (max task.start) else some task.start
  some (begins + (← task.plan.duration))

/-- When a task that still runs comes to its own end. -/
def ending? (stopped : Option Nat) (task : BackgroundTask) : Option Nat :=
  if task.isRunning then task.finish? stopped else none

/-- The task at its own end. -/
def ended (task : BackgroundTask) : BackgroundTask :=
  { task with state := if task.plan.breaksOff then .brokenOff else .returned }

/-- The task once all has been done that comes before a time. -/
def settle (stopped : Option Nat) (time : Nat) (task : BackgroundTask) : BackgroundTask :=
  match task.ending? stopped with
  | some finish => if finish < time then task.ended else task
  | none => task

def settleAll (stopped : Option Nat) (time : Nat) (tasks : List BackgroundTask) : List BackgroundTask :=
  tasks.map (settle stopped time)

theorem settleAll_cons (stopped : Option Nat) (time : Nat) (task : BackgroundTask) (rest : List BackgroundTask) :
    settleAll stopped time (task :: rest) = task.settle stopped time :: settleAll stopped time rest := rfl

/-- Aborts a task that still runs. -/
def abort (task : BackgroundTask) : BackgroundTask :=
  if task.isRunning then { task with state := .aborted } else task

theorem le_of_ending?_settle {stopped : Option Nat} {time finish : Nat} {task : BackgroundTask}
    (ending : (task.settle stopped time).ending? stopped = some finish) : time ≤ finish := by
  unfold settle at ending
  split at ending
  next before same =>
    split at ending
    next =>
      have notRunning : task.ended.isRunning = false := by
        cases breaksOff : task.plan.breaksOff <;> simp [isRunning, ended, breaksOff]
      simp [ending?, notRunning] at ending
    next late =>
      rw [same, Option.some_inj] at ending
      omega
  next none =>
    rw [none] at ending
    contradiction

end BackgroundTask

/-- The barrier holds the tasks that have been handed to it since the latest shutdown. Those from
before are released. -/
structure Barrier where
  clock : Nat
  stopped : Option Nat
  isDropped : Bool
  tasks : List BackgroundTask
  released : List BackgroundTask
  deriving DecidableEq

namespace Barrier

def empty : Barrier := ⟨0, none, false, [], []⟩

def track (plan : TaskPlan) (barrier : Barrier) : Barrier :=
  { barrier with tasks := barrier.tasks ++ [⟨plan, barrier.clock, .running⟩] }

/-- Lets time pass. What is due at the very end is left to the next pass of time. -/
def advance (duration : Nat) (barrier : Barrier) : Barrier :=
  let clock := barrier.clock + duration
  { barrier with
    clock := clock
    tasks := BackgroundTask.settleAll barrier.stopped clock barrier.tasks }

/-- The time at which the stop is asked for; the first one counts. -/
def stopTime (barrier : Barrier) : Nat := barrier.stopped.getD barrier.clock

/-- Dropping the barrier asks for a stop and aborts nothing. -/
def drop (barrier : Barrier) : Barrier :=
  { barrier with stopped := some barrier.stopTime, isDropped := true }

/-- How many tasks have returned. -/
def done (barrier : Barrier) : Nat :=
  (barrier.released ++ barrier.tasks).countP fun task => task.state == .returned

/-- Whether those who wait for the stop see it. All of them look at the same flag. -/
def isStopSeen (barrier : Barrier) : Bool := barrier.stopped.isSome

/-- Whether a stop has been asked for. A dropped barrier does not tell. -/
def isTriggered? (barrier : Barrier) : Option Bool :=
  if barrier.isDropped then none else some barrier.isStopSeen

/-- When the next task comes to its end, at the latest the deadline. -/
def wakeup (stopped : Option Nat) (deadline : Nat) : List BackgroundTask → Nat
  | [] => deadline
  | task :: rest =>
    match task.ending? stopped with
    | some finish => min finish (wakeup stopped deadline rest)
    | none => wakeup stopped deadline rest

theorem lt_wakeup {stopped : Option Nat} {deadline time : Nat} (early : time < deadline)
    (tasks : List BackgroundTask) :
    time < wakeup stopped deadline (BackgroundTask.settleAll stopped (time + 1) tasks) := by
  induction tasks with
  | nil => exact early
  | cons task rest inductionHypothesis =>
      rw [BackgroundTask.settleAll_cons, wakeup]
      split
      next finish ending =>
        have late := BackgroundTask.le_of_ending?_settle ending
        omega
      next => exact inductionHypothesis

/-- Waits until no task runs any more, at most up to the deadline. Time goes straight from one end
of a task to the next. Gives the time and the tasks as they stand then. -/
def join (stopped : Option Nat) (deadline now : Nat) (tasks : List BackgroundTask) :
    Nat × List BackgroundTask :=
  if early : now < deadline then
    let settled := BackgroundTask.settleAll stopped (now + 1) tasks
    if settled.any BackgroundTask.isRunning then
      join stopped deadline (wakeup stopped deadline settled) settled
    else (now, settled)
  else (now, tasks)
termination_by deadline - now
decreasing_by
  have later := @lt_wakeup stopped deadline now early tasks
  omega

/-- Asks all tasks to stop and waits until the last one ends, at most for the grace period. Those
that still run then are aborted; gives how many these are. -/
def shutdown (grace : Nat) (barrier : Barrier) : Barrier × Nat :=
  let stopped := some barrier.stopTime
  let (clock, tasks) := join stopped (barrier.clock + grace) barrier.clock barrier.tasks
  ({ barrier with
      clock := clock
      stopped := stopped
      tasks := []
      released := barrier.released ++ tasks.map BackgroundTask.abort },
    tasks.countP BackgroundTask.isRunning)

end Barrier

end DelayGenerator
