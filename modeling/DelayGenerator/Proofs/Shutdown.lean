/-
This file shows that ending background tasks counts each of them once at most: those that end within the grace
period are waited for, the others are aborted, and nothing takes longer than the grace period.
-/

import DelayGenerator.Shutdown
import Mathlib.Data.List.Basic
import Mathlib.Order.Lattice

namespace DelayGenerator

namespace BackgroundTask

/-- Whether a task comes to its own end by a time. -/
def endsBy (stopped : Option Nat) (time : Nat) (task : BackgroundTask) : Bool :=
  (task.finish? stopped).any fun finish => finish ≤ time

/-- Whether it does so before a time. -/
def endsBefore (stopped : Option Nat) (time : Nat) (task : BackgroundTask) : Bool :=
  (task.finish? stopped).any fun finish => finish < time

/-- The task as it has been handed over. -/
def fresh (task : BackgroundTask) : BackgroundTask := { task with state := .running }

/-- The task as it must stand at a time if it has not been aborted. -/
def standing (stopped : Option Nat) (time : Nat) (task : BackgroundTask) : BackgroundTask :=
  if task.endsBefore stopped time then task.ended else task.fresh

def standAll (stopped : Option Nat) (time : Nat) (tasks : List BackgroundTask) : List BackgroundTask :=
  tasks.map (standing stopped time)

section

variable {stopped : Option Nat} {time later finish : Nat} {task : BackgroundTask}

theorem isRunning_fresh (task : BackgroundTask) : task.fresh.isRunning = true := rfl

theorem isRunning_ended (task : BackgroundTask) : task.ended.isRunning = false := by
  cases breaksOff : task.plan.breaksOff <;> simp [isRunning, ended, breaksOff]

theorem endsBefore_of_finish (ends : task.finish? stopped = some finish) :
    task.endsBefore stopped time = decide (finish < time) := by
  rw [endsBefore, ends]
  rfl

theorem endsBefore_of_never (never : task.finish? stopped = none) : task.endsBefore stopped time = false := by
  rw [endsBefore, never]
  rfl

theorem isRunning_standing (stopped : Option Nat) (time : Nat) (task : BackgroundTask) :
    (task.standing stopped time).isRunning = !task.endsBefore stopped time := by
  rw [standing]
  cases task.endsBefore stopped time with
  | true => exact isRunning_ended task
  | false => exact isRunning_fresh task

/-- Only a task whose end has not come is still to end. -/
theorem ending?_standing (stopped : Option Nat) (time : Nat) (task : BackgroundTask) :
    (task.standing stopped time).ending? stopped =
      if task.endsBefore stopped time then none else task.finish? stopped := by
  have same : (task.standing stopped time).finish? stopped = task.finish? stopped := by
    rw [standing]
    split <;> rfl
  rw [ending?, isRunning_standing, same]
  cases task.endsBefore stopped time <;> rfl

theorem plan_standing (stopped : Option Nat) (time : Nat) (task : BackgroundTask) :
    (task.standing stopped time).plan = task.plan := by
  rw [standing]
  split <;> rfl

theorem start_standing (stopped : Option Nat) (time : Nat) (task : BackgroundTask) :
    (task.standing stopped time).start = task.start := by
  rw [standing]
  split <;> rfl

/-- How a task stands follows from its plan and from its start. -/
theorem standing_congr {other : BackgroundTask} (plan : task.plan = other.plan) (start : task.start = other.start) :
    task.standing stopped time = other.standing stopped time := by
  obtain ⟨_, _, _⟩ := task
  obtain ⟨_, _, _⟩ := other
  subst plan start
  rfl

theorem standAll_standAll (stopped : Option Nat) (time : Nat) (tasks : List BackgroundTask) :
    standAll stopped time (standAll stopped time tasks) = standAll stopped time tasks := by
  rw [standAll, standAll, List.map_map]
  exact List.map_congr_left fun task _ => standing_congr (plan_standing _ _ _) (start_standing _ _ _)

/-- What is done up to a time is the same in one go or in two. -/
theorem settle_standing (inOrder : time ≤ later) (task : BackgroundTask) :
    (task.standing stopped time).settle stopped later = task.standing stopped later := by
  rw [settle, ending?_standing, standing, standing]
  cases ends : task.finish? stopped with
  | none => simp [endsBefore_of_never ends]
  | some finish =>
      by_cases early : finish < time
      · have earlier : finish < later := by omega
        simp [endsBefore_of_finish ends, early, earlier]
      · by_cases earlier : finish < later
        · simp only [endsBefore_of_finish ends, early, earlier, decide_false, decide_true, Bool.false_eq_true, if_false,
            if_true]
          rfl
        · simp [endsBefore_of_finish ends, early, earlier]

theorem settleAll_standAll (inOrder : time ≤ later) (tasks : List BackgroundTask) :
    settleAll stopped later (standAll stopped time tasks) = standAll stopped later tasks := by
  rw [settleAll, standAll, List.map_map, standAll]
  exact List.map_congr_left fun task _ => settle_standing inOrder task

/-- The task that has been aborted while it was running. -/
def cutOff (task : BackgroundTask) : BackgroundTask := { task with state := .aborted }

theorem isRunning_abort (task : BackgroundTask) : task.abort.isRunning = false := by
  rw [abort]
  split
  · rfl
  next ended => simpa using ended

theorem abort_standing (stopped : Option Nat) (time : Nat) (task : BackgroundTask) :
    (task.standing stopped time).abort = if task.endsBefore stopped time then task.ended else task.cutOff := by
  rw [abort, isRunning_standing, standing]
  cases task.endsBefore stopped time <;> rfl

theorem countP_isRunning_standAll (stopped : Option Nat) (time : Nat) (tasks : List BackgroundTask) :
    (standAll stopped time tasks).countP isRunning = tasks.countP fun task => !task.endsBefore stopped time := by
  rw [standAll, List.countP_map]
  exact List.countP_congr fun task _ => by rw [Function.comp, isRunning_standing]

/-- Where no end lies between two times, all stand the same. -/
theorem standAll_congr {tasks : List BackgroundTask}
    (same : ∀ task ∈ tasks, task.endsBefore stopped time = task.endsBefore stopped later) :
    standAll stopped time tasks = standAll stopped later tasks :=
  List.map_congr_left fun task member => by rw [standing, standing, same task member]

theorem any_isRunning_standAll {tasks : List BackgroundTask} :
    (standAll stopped time tasks).any isRunning = true ↔ ∃ task ∈ tasks, task.endsBefore stopped time = false := by
  rw [standAll, List.any_map, List.any_eq_true]
  simp [isRunning_standing]

theorem endsBefore_iff :
    task.endsBefore stopped time = true ↔ ∃ finish, task.finish? stopped = some finish ∧ finish < time := by
  cases ends : task.finish? stopped <;> simp [endsBefore, ends]

theorem endsBy_iff :
    task.endsBy stopped time = true ↔ ∃ finish, task.finish? stopped = some finish ∧ finish ≤ time := by
  cases ends : task.finish? stopped <;> simp [endsBy, ends]

theorem endsBefore_mono (inOrder : time ≤ later) (early : task.endsBefore stopped time = true) :
    task.endsBefore stopped later = true := by
  obtain ⟨finish, ends, early⟩ := endsBefore_iff.mp early
  exact endsBefore_iff.mpr ⟨finish, ends, Nat.lt_of_lt_of_le early inOrder⟩

end

end BackgroundTask

namespace Barrier

open BackgroundTask

section

variable {stopped : Option Nat} {deadline time : Nat}

theorem wakeup_le_deadline (tasks : List BackgroundTask) : wakeup stopped deadline tasks ≤ deadline := by
  induction tasks with
  | nil => exact Nat.le_refl _
  | cons task rest inductionHypothesis =>
      rw [wakeup]
      split
      · exact Nat.le_trans (Nat.min_le_right _ _) inductionHypothesis
      · exact inductionHypothesis

theorem wakeup_le_ending {tasks : List BackgroundTask} {task : BackgroundTask} {finish : Nat} (member : task ∈ tasks)
    (ending : task.ending? stopped = some finish) : wakeup stopped deadline tasks ≤ finish := by
  induction tasks with
  | nil => contradiction
  | cons first rest inductionHypothesis =>
      rw [wakeup]
      rcases List.mem_cons.mp member with rfl | member
      · rw [ending]
        exact Nat.min_le_left _ _
      · have later := inductionHypothesis member
        split
        · exact Nat.le_trans (Nat.min_le_right _ _) later
        · exact later

/-- The next time that matters is the deadline or the end of a task. -/
theorem wakeup_cases (tasks : List BackgroundTask) :
    wakeup stopped deadline tasks = deadline ∨
      ∃ task ∈ tasks, task.ending? stopped = some (wakeup stopped deadline tasks) := by
  induction tasks with
  | nil => exact Or.inl rfl
  | cons first rest inductionHypothesis =>
      have behind : wakeup stopped deadline rest = deadline ∨
          ∃ task ∈ first :: rest, task.ending? stopped = some (wakeup stopped deadline rest) := by
        rcases inductionHypothesis with last | ⟨task, member, ending⟩
        · exact Or.inl last
        · exact Or.inr ⟨task, List.mem_cons_of_mem _ member, ending⟩
      rw [wakeup]
      split
      next finish ending =>
        rcases Nat.le_total finish (wakeup stopped deadline rest) with first_le | rest_le
        · rw [Nat.min_eq_left first_le]
          exact Or.inr ⟨first, List.mem_cons_self, ending⟩
        · rw [Nat.min_eq_right rest_le]
          exact behind
      next => exact behind

/-- No end lies between a time and the next time that matters. -/
theorem endsBefore_wakeup {tasks : List BackgroundTask}
    (early : time ≤ wakeup stopped deadline (standAll stopped time tasks)) {task : BackgroundTask}
    (member : task ∈ tasks) :
    task.endsBefore stopped time = task.endsBefore stopped (wakeup stopped deadline (standAll stopped time tasks)) := by
  cases ends : task.finish? stopped with
  | none => rw [endsBefore_of_never ends, endsBefore_of_never ends]
  | some finish =>
      rw [endsBefore_of_finish ends, endsBefore_of_finish ends, decide_eq_decide]
      constructor
      · intro before
        omega
      · intro before
        by_contra late
        have ending : (task.standing stopped time).ending? stopped = some finish := by
          rw [ending?_standing, endsBefore_of_finish ends, ends]
          simp [late]
        have next := @wakeup_le_ending stopped deadline _ _ _ (List.mem_map_of_mem member) ending
        rw [standAll] at before
        omega

/-- How long is waited for tasks: until the last one has come to its end, or up to the deadline. -/
structure IsJoined (stopped : Option Nat) (deadline now : Nat) (tasks : List BackgroundTask) (clock : Nat) : Prop where
  le : now ≤ clock
  le_deadline : clock ≤ deadline
  late : ∀ task ∈ tasks, task.endsBefore stopped deadline = false → clock = deadline
  inTime : (∀ task ∈ tasks, task.endsBefore stopped deadline = true) →
    (∀ task ∈ tasks, task.endsBy stopped clock = true) ∧
      (clock = now ∨ ∃ task ∈ tasks, task.finish? stopped = some clock)

theorem endsBy_of_endsBefore {task : BackgroundTask} (early : task.endsBefore stopped (time + 1) = true) :
    task.endsBy stopped time = true := by
  obtain ⟨finish, ends, early⟩ := endsBefore_iff.mp early
  exact endsBy_iff.mpr ⟨finish, ends, Nat.le_of_lt_succ early⟩

theorem join_of_lt {now : Nat} (early : now < deadline) (tasks : List BackgroundTask) :
    join stopped deadline now tasks =
      if (settleAll stopped (now + 1) tasks).any isRunning then
        join stopped deadline (wakeup stopped deadline (settleAll stopped (now + 1) tasks))
          (settleAll stopped (now + 1) tasks)
      else (now, settleAll stopped (now + 1) tasks) := by
  rw [join, dif_pos early]

/-- When all tasks have ended there is nothing to wait for. -/
theorem isJoined_of_idle {now : Nat} {tasks : List BackgroundTask} (early : now < deadline)
    (all : ∀ task ∈ tasks, task.endsBefore stopped (now + 1) = true) : IsJoined stopped deadline now tasks now where
  le := Nat.le_refl _
  le_deadline := early.le
  late := by
    intro task member runs
    rw [endsBefore_mono early (all task member)] at runs
    contradiction
  inTime _ := ⟨fun task member => endsBy_of_endsBefore (all task member), Or.inl rfl⟩

/-- At the deadline the wait is over. -/
theorem isJoined_deadline (tasks : List BackgroundTask) : IsJoined stopped deadline deadline tasks deadline where
  le := Nat.le_refl _
  le_deadline := Nat.le_refl _
  late _ _ _ := rfl
  inTime all :=
    ⟨fun task member => endsBy_of_endsBefore (endsBefore_mono (Nat.le_succ _) (all task member)), Or.inl rfl⟩

/-- While a task runs, waiting now is waiting from the next time that matters. -/
theorem IsJoined.of_wakeup {now clock : Nat} {tasks : List BackgroundTask}
    (later : now + 1 ≤ wakeup stopped deadline (standAll stopped (now + 1) tasks))
    (running : ∃ task ∈ tasks, task.endsBefore stopped (now + 1) = false)
    (joined : IsJoined stopped deadline (wakeup stopped deadline (standAll stopped (now + 1) tasks)) tasks clock) :
    IsJoined stopped deadline now tasks clock where
  le := by
    have := joined.le
    omega
  le_deadline := joined.le_deadline
  late := joined.late
  inTime := by
    intro all
    refine ⟨(joined.inTime all).1, ?_⟩
    rcases (joined.inTime all).2 with atOnce | ended
    · rcases @wakeup_cases stopped deadline (standAll stopped (now + 1) tasks) with last | ⟨task, member, ending⟩
      · -- A task that still runs would end at the deadline at the earliest.
        obtain ⟨task, member, runs⟩ := running
        rw [endsBefore_wakeup later member, last, all task member] at runs
        contradiction
      · obtain ⟨ended, inside, rfl⟩ := List.mem_map.mp member
        rw [ending?_standing, ← atOnce] at ending
        split at ending
        · contradiction
        · exact Or.inr ⟨ended, inside, ending⟩
    · exact Or.inr ended

/-- All ends before the deadline come, whenever the wait is over. -/
theorem join_standAll {now : Nat} (inOrder : now ≤ deadline) (tasks : List BackgroundTask) :
    (join stopped deadline now (standAll stopped now tasks)).2 = standAll stopped deadline tasks ∧
      IsJoined stopped deadline now tasks (join stopped deadline now (standAll stopped now tasks)).1 := by
  induction gap : deadline - now using Nat.strongRecOn generalizing now with
  | ind gap inductionHypothesis =>
      rcases Nat.lt_or_eq_of_le inOrder with early | same
      · rw [join_of_lt early, settleAll_standAll (Nat.le_add_right now 1)]
        split
        next running =>
          have later := @lt_wakeup stopped deadline now early (standAll stopped now tasks)
          rw [settleAll_standAll (Nat.le_add_right now 1)] at later
          have within : wakeup stopped deadline (standAll stopped (now + 1) tasks) ≤ deadline := wakeup_le_deadline _
          -- Until the next end all tasks stand as they do now.
          have same : standAll stopped (now + 1) tasks =
              standAll stopped (wakeup stopped deadline (standAll stopped (now + 1) tasks)) tasks :=
            standAll_congr fun task member => endsBefore_wakeup later member
          obtain ⟨tasksThen, joined⟩ := inductionHypothesis _ (by omega) within rfl
          rw [← same] at tasksThen joined
          exact ⟨tasksThen, joined.of_wakeup later (any_isRunning_standAll.mp running)⟩
        next idle =>
          have all : ∀ task ∈ tasks, task.endsBefore stopped (now + 1) = true := by
            intro task member
            by_contra runs
            exact idle (any_isRunning_standAll.mpr ⟨task, member, by simpa using runs⟩)
          refine ⟨standAll_congr fun task member => ?_, isJoined_of_idle early all⟩
          rw [all task member, endsBefore_mono early (all task member)]
      · subst same
        rw [join, dif_neg (Nat.lt_irrefl now)]
        exact ⟨rfl, isJoined_deadline tasks⟩

end

/-- What may happen to a barrier. -/
inductive Move where
  | track (plan : TaskPlan)
  | advance (duration : Nat)
  | shutdown (grace : Nat)
  deriving DecidableEq

/-- Makes a move. Gives how many tasks are aborted. -/
def act (barrier : Barrier) : Move → Barrier × Nat
  | .track plan => (barrier.track plan, 0)
  | .advance duration => (barrier.advance duration, 0)
  | .shutdown grace => barrier.shutdown grace

/-- Makes moves one after another. Gives how many tasks are aborted in all. -/
def run (barrier : Barrier) : List Move → Barrier × Nat
  | [] => (barrier, 0)
  | move :: rest =>
    let (next, aborted) := barrier.act move
    let (last, others) := next.run rest
    (last, aborted + others)

/-- The tasks of the barrier stand as they must, and those that it has released have come to an end. -/
structure IsSound (barrier : Barrier) : Prop where
  kept : barrier.isDropped = false
  stopped : ∀ time, barrier.stopped = some time → time ≤ barrier.clock
  started : ∀ task ∈ barrier.tasks, task.start ≤ barrier.clock
  tasks : barrier.tasks = standAll barrier.stopped barrier.clock barrier.tasks
  released : ∀ task ∈ barrier.released, task.isRunning = false

section

variable {barrier : Barrier}

theorem isSound_empty : empty.IsSound where
  kept := rfl
  stopped := by simp [empty]
  started := by simp [empty]
  tasks := rfl
  released := by simp [empty]

theorem IsSound.stopTime_le (sound : barrier.IsSound) : barrier.stopTime ≤ barrier.clock := by
  rw [stopTime]
  cases asked : barrier.stopped with
  | none => exact Nat.le_refl _
  | some time => exact sound.stopped time asked

theorem endsBefore_start {stopped : Option Nat} (early : ∀ time, stopped = some time → time ≤ barrier.clock)
    (plan : TaskPlan) : endsBefore stopped barrier.clock ⟨plan, barrier.clock, .running⟩ = false := by
  by_contra ends
  rw [Bool.not_eq_false, endsBefore_iff] at ends
  obtain ⟨finish, ends, before⟩ := ends
  simp only [finish?] at ends
  split at ends
  · cases asked : stopped with
    | none => simp [asked] at ends
    | some time =>
        rw [asked] at ends
        cases lasts : plan.duration with
        | none => simp [lasts] at ends
        | some duration =>
            have atClock := early time asked
            simp [lasts] at ends
            omega
  · cases lasts : plan.duration with
    | none => simp [lasts] at ends
    | some duration =>
        simp [lasts] at ends
        omega

theorem IsSound.track (sound : barrier.IsSound) (plan : TaskPlan) : (barrier.track plan).IsSound where
  kept := sound.kept
  stopped := sound.stopped
  started := by
    intro task member
    rcases List.mem_append.mp member with old | new
    · exact sound.started task old
    · rw [List.mem_singleton.mp new]
      exact Nat.le_refl _
  tasks := by
    change barrier.tasks ++ [_] = standAll barrier.stopped barrier.clock (barrier.tasks ++ [_])
    rw [standAll, List.map_append, ← standAll, ← sound.tasks, List.map_singleton, standing,
      endsBefore_start sound.stopped]
    rfl
  released := sound.released

theorem IsSound.advance (sound : barrier.IsSound) (duration : Nat) : (barrier.advance duration).IsSound := by
  have later : barrier.clock ≤ barrier.clock + duration := Nat.le_add_right _ _
  have tasks : (barrier.advance duration).tasks =
      standAll barrier.stopped (barrier.clock + duration) barrier.tasks := by
    change settleAll _ _ barrier.tasks = _
    conv_lhs => rw [sound.tasks]
    exact settleAll_standAll later _
  refine ⟨sound.kept, fun time asked => Nat.le_trans (sound.stopped time asked) later, ?_, ?_, sound.released⟩
  · intro task member
    rw [tasks] at member
    obtain ⟨before, inside, rfl⟩ := List.mem_map.mp member
    rw [start_standing]
    exact Nat.le_trans (sound.started before inside) later
  · rw [tasks]
    exact (standAll_standAll _ _ _).symm

/-- Asking for the stop now changes nothing about what has happened. -/
theorem endsBefore_stopTime {task : BackgroundTask} (started : task.start ≤ barrier.clock) :
    task.endsBefore barrier.stopped barrier.clock = task.endsBefore (some barrier.stopTime) barrier.clock := by
  rw [stopTime]
  cases asked : barrier.stopped with
  | some time => rfl
  | none =>
      rw [Option.getD_none, endsBefore, endsBefore, finish?, finish?]
      cases waits : task.plan.awaitsStop with
      | false => rfl
      | true => cases lasts : task.plan.duration <;> simp [started]

theorem IsSound.standAll_stopTime (sound : barrier.IsSound) :
    barrier.tasks = standAll (some barrier.stopTime) barrier.clock barrier.tasks := by
  conv_lhs => rw [sound.tasks]
  refine List.map_congr_left fun task member => ?_
  rw [standing, standing, endsBefore_stopTime (sound.started task member)]

/-- Whether a task ends by the deadline of a shutdown. -/
def isInTime (barrier : Barrier) (grace : Nat) (task : BackgroundTask) : Bool :=
  task.endsBy (some barrier.stopTime) (barrier.clock + grace)

/-- What becomes of a task in a shutdown. -/
def fate (barrier : Barrier) (grace : Nat) (task : BackgroundTask) : BackgroundTask :=
  if barrier.isInTime grace task then task.ended else task.cutOff

/-- What a shutdown does. The tasks that end in time are waited for, the others are aborted and counted. Afterwards
the barrier is triggered and holds no task, whoever waits for the stop goes on at once, and to shut down once more
changes nothing. -/
structure EndsTasks (barrier : Barrier) (grace : Nat) (after : Barrier) (aborted : Nat) : Prop where
  stopped : after.stopped = some barrier.stopTime
  fates : after.released = barrier.released ++ barrier.tasks.map (barrier.fate grace)
  counted : aborted = barrier.tasks.countP fun task => !barrier.isInTime grace task
  le : barrier.clock ≤ after.clock
  within : after.clock ≤ barrier.clock + grace
  late : ∀ task ∈ barrier.tasks, barrier.isInTime grace task = false → after.clock = barrier.clock + grace
  inTime : (∀ task ∈ barrier.tasks, barrier.isInTime grace task = true) →
    aborted = 0 ∧ (∀ task ∈ barrier.tasks, task.endsBy after.stopped after.clock = true) ∧
      (after.clock = barrier.clock ∨ ∃ task ∈ barrier.tasks, task.finish? after.stopped = some after.clock)
  held : after.tasks = []
  triggered : after.isTriggered? = some true
  seen : ∀ task : BackgroundTask, after.clock ≤ task.start →
    task.finish? after.stopped = task.plan.duration.map (task.start + ·)
  again : ∀ pause grace', (after.advance pause).shutdown grace' = (after.advance pause, 0)

/-- No task of the barrier ends right at the deadline. -/
def IsApart (barrier : Barrier) (grace : Nat) : Prop :=
  ∀ task ∈ barrier.tasks, task.finish? (some barrier.stopTime) ≠ some (barrier.clock + grace)

instance (barrier : Barrier) (grace : Nat) : Decidable (barrier.IsApart grace) :=
  inferInstanceAs (Decidable (∀ task ∈ barrier.tasks, _))

theorem IsApart.endsBefore_eq {grace : Nat} (apart : barrier.IsApart grace) {task : BackgroundTask}
    (member : task ∈ barrier.tasks) :
    task.endsBefore (some barrier.stopTime) (barrier.clock + grace) = barrier.isInTime grace task := by
  have notThen := apart task member
  rw [isInTime, endsBy, endsBefore]
  cases ends : task.finish? (some barrier.stopTime) with
  | none => rfl
  | some finish =>
      rw [ends, ne_eq, Option.some_inj] at notThen
      rw [Option.any_some, Option.any_some, decide_eq_decide]
      omega

/-- The wait of a shutdown. -/
theorem IsSound.join (sound : barrier.IsSound) (grace : Nat) :
    (join (some barrier.stopTime) (barrier.clock + grace) barrier.clock barrier.tasks).2 =
        standAll (some barrier.stopTime) (barrier.clock + grace) barrier.tasks ∧
      IsJoined (some barrier.stopTime) (barrier.clock + grace) barrier.clock barrier.tasks
        (barrier.shutdown grace).1.clock := by
  have joined := @join_standAll (some barrier.stopTime) _ _ (Nat.le_add_right barrier.clock grace) barrier.tasks
  rw [← sound.standAll_stopTime] at joined
  exact joined

theorem IsSound.released_shutdown (sound : barrier.IsSound) (grace : Nat) :
    (barrier.shutdown grace).1.released =
      barrier.released ++ (standAll (some barrier.stopTime) (barrier.clock + grace) barrier.tasks).map abort := by
  rw [← (sound.join grace).1]
  rfl

theorem IsSound.shutdown (sound : barrier.IsSound) (grace : Nat) : (barrier.shutdown grace).1.IsSound where
  kept := sound.kept
  stopped := by
    intro time asked
    change some barrier.stopTime = some time at asked
    rw [← Option.some.inj asked]
    exact Nat.le_trans sound.stopTime_le (sound.join grace).2.le
  started := fun _ member => absurd member List.not_mem_nil
  tasks := rfl
  released := by
    intro task member
    rw [sound.released_shutdown grace, List.mem_append] at member
    rcases member with old | new
    · exact sound.released task old
    · obtain ⟨before, _, rfl⟩ := List.mem_map.mp new
      exact isRunning_abort before

/-- Without tasks a shutdown is over at once. -/
theorem shutdown_of_idle {time : Nat} (asked : barrier.stopped = some time) (idle : barrier.tasks = []) (grace : Nat) :
    barrier.shutdown grace = (barrier, 0) := by
  obtain ⟨clock, stopped, isDropped, tasks, released⟩ := barrier
  subst asked idle
  have joined : Barrier.join (some time) (clock + grace) clock [] = (clock, []) := by
    rw [Barrier.join]
    split <;> rfl
  simp [Barrier.shutdown, stopTime, joined]

theorem IsSound.endsTasks {grace : Nat} (sound : barrier.IsSound) (apart : barrier.IsApart grace) :
    EndsTasks barrier grace (barrier.shutdown grace).1 (barrier.shutdown grace).2 := by
  have joined := (sound.join grace).2
  have counted : (barrier.shutdown grace).2 = barrier.tasks.countP fun task => !barrier.isInTime grace task := by
    change (Barrier.join _ _ _ _).2.countP isRunning = _
    rw [(sound.join grace).1, countP_isRunning_standAll]
    exact List.countP_congr fun task member => by rw [apart.endsBefore_eq member]
  refine
    { stopped := rfl
      fates := ?_
      counted := counted
      le := joined.le
      within := joined.le_deadline
      late := fun task member late => joined.late task member ((apart.endsBefore_eq member).trans late)
      inTime := fun all => ⟨?_, joined.inTime fun task member => (apart.endsBefore_eq member).trans (all task member)⟩
      held := rfl
      triggered := ?_
      seen := ?_
      again := ?_ }
  · rw [sound.released_shutdown grace, standAll, List.map_map]
    congr 1
    refine List.map_congr_left fun task member => ?_
    rw [Function.comp, abort_standing, apart.endsBefore_eq member, fate]
  · rw [counted, List.countP_eq_zero]
    intro task member
    simp [all task member]
  · rw [isTriggered?, (sound.shutdown grace).kept]
    rfl
  · intro task started
    have asked : barrier.stopTime ≤ task.start := Nat.le_trans (Nat.le_trans sound.stopTime_le joined.le) started
    change task.finish? (some barrier.stopTime) = _
    cases lasts : task.plan.duration <;> cases waits : task.plan.awaitsStop <;> simp [finish?, lasts, waits, asked]
  · intro pause grace'
    exact @shutdown_of_idle ((barrier.shutdown grace).1.advance pause) barrier.stopTime rfl rfl grace'

theorem IsSound.act (sound : barrier.IsSound) (move : Move) : (barrier.act move).1.IsSound := by
  cases move with
  | track plan => exact sound.track plan
  | advance duration => exact sound.advance duration
  | shutdown grace => exact sound.shutdown grace

theorem IsSound.run (sound : barrier.IsSound) (moves : List Move) : (barrier.run moves).1.IsSound := by
  induction moves generalizing barrier with
  | nil => exact sound
  | cons move rest inductionHypothesis => exact inductionHypothesis (sound.act move)

/-- All tasks that have ever been handed to the barrier. -/
def all (barrier : Barrier) : List BackgroundTask := barrier.released ++ barrier.tasks

/-- How many of them have been aborted. -/
def cutOffs (barrier : Barrier) : Nat := barrier.all.countP fun task => task.state == .aborted

def Move.plan? : Move → Option TaskPlan
  | .track plan => some plan
  | _ => none

/-- The tasks of one barrier are those of the other and the given ones behind, and as many more of them are aborted as
have been counted. -/
structure Accounts (barrier after : Barrier) (plans : List TaskPlan) (aborted : Nat) : Prop where
  plans : after.all.map BackgroundTask.plan = barrier.all.map BackgroundTask.plan ++ plans
  cutOffs : after.cutOffs = barrier.cutOffs + aborted

theorem countP_cutOff_standAll (stopped : Option Nat) (time : Nat) (tasks : List BackgroundTask) :
    (standAll stopped time tasks).countP (fun task => task.state == .aborted) = 0 := by
  rw [standAll, List.countP_map, List.countP_eq_zero]
  intro task _
  rw [Function.comp, standing]
  split
  · cases breaksOff : task.plan.breaksOff <;> simp [ended, breaksOff]
  · simp [fresh]

/-- Aborting adds those that were running to those that were aborted before. -/
theorem countP_cutOff_abort (tasks : List BackgroundTask) :
    (tasks.map abort).countP (fun task => task.state == .aborted) =
      tasks.countP (fun task => task.state == .aborted) + tasks.countP isRunning := by
  induction tasks with
  | nil => rfl
  | cons task rest inductionHypothesis =>
      rw [List.map_cons, List.countP_cons, List.countP_cons, List.countP_cons, inductionHypothesis]
      cases state : task.state <;> simp [abort, isRunning, state] <;> omega

theorem map_plan_abort (tasks : List BackgroundTask) : (tasks.map abort).map plan = tasks.map plan := by
  rw [List.map_map]
  refine List.map_congr_left fun task _ => ?_
  rw [Function.comp, abort]
  split <;> rfl

theorem map_plan_standAll (stopped : Option Nat) (time : Nat) (tasks : List BackgroundTask) :
    (standAll stopped time tasks).map plan = tasks.map plan := by
  rw [standAll, List.map_map]
  exact List.map_congr_left fun task _ => plan_standing stopped time task

theorem IsSound.countP_cutOff (sound : barrier.IsSound) :
    barrier.tasks.countP (fun task => task.state == .aborted) = 0 := by
  rw [sound.tasks]
  exact countP_cutOff_standAll _ _ _

theorem IsSound.cutOffs_eq (sound : barrier.IsSound) :
    barrier.cutOffs = barrier.released.countP fun task => task.state == .aborted := by
  rw [cutOffs, all, List.countP_append, sound.countP_cutOff, Nat.add_zero]

theorem IsSound.accounts_act (sound : barrier.IsSound) (move : Move) :
    Accounts barrier (barrier.act move).1 move.plan?.toList (barrier.act move).2 := by
  have soundThen := sound.act move
  cases move with
  | track plan =>
      constructor
      · simp [all, Barrier.act, Barrier.track, Move.plan?]
      · rw [soundThen.cutOffs_eq, sound.cutOffs_eq]
        rfl
  | advance duration =>
      constructor
      · change (barrier.released ++ settleAll _ _ barrier.tasks).map BackgroundTask.plan = _
        rw [sound.tasks, settleAll_standAll (Nat.le_add_right _ _), List.map_append, map_plan_standAll]
        simp [all, Move.plan?]
      · rw [soundThen.cutOffs_eq, sound.cutOffs_eq]
        rfl
  | shutdown grace =>
      constructor
      · change ((barrier.shutdown grace).1.released ++ []).map BackgroundTask.plan = _
        rw [sound.released_shutdown grace, List.append_nil, List.map_append, map_plan_abort, map_plan_standAll]
        simp [all, Move.plan?]
      · rw [soundThen.cutOffs_eq, sound.cutOffs_eq, Barrier.act, sound.released_shutdown grace, List.countP_append,
          countP_cutOff_abort, countP_cutOff_standAll, Nat.zero_add, ← (sound.join grace).1]
        rfl

theorem IsSound.accounts_run (sound : barrier.IsSound) (moves : List Move) :
    Accounts barrier (barrier.run moves).1 (moves.filterMap Move.plan?) (barrier.run moves).2 := by
  induction moves generalizing barrier with
  | nil => exact ⟨by simp [Barrier.run], by simp [Barrier.run]⟩
  | cons move rest inductionHypothesis =>
      have first := sound.accounts_act move
      have behind := inductionHypothesis (sound.act move)
      constructor
      · change ((barrier.act move).1.run rest).1.all.map _ = _
        rw [behind.plans, first.plans, List.append_assoc]
        cases planned : move.plan? <;> simp [planned]
      · change ((barrier.act move).1.run rest).1.cutOffs =
          barrier.cutOffs + ((barrier.act move).2 + ((barrier.act move).1.run rest).2)
        rw [behind.cutOffs, first.cutOffs, Nat.add_assoc]

end

/-- A shutdown ends the tasks that have been handed over, whatever has been done to the barrier before. Each task is
kept, and over all shutdowns it is aborted and counted once at most. -/
theorem run_shutdown_endsTasks (moves : List Move) (grace : Nat) (apart : (empty.run moves).1.IsApart grace) :
    EndsTasks (empty.run moves).1 grace ((empty.run moves).1.shutdown grace).1
        ((empty.run moves).1.shutdown grace).2 ∧
      Accounts empty ((empty.run moves).1.shutdown grace).1 (moves.filterMap Move.plan?)
        ((empty.run moves).2 + ((empty.run moves).1.shutdown grace).2) := by
  have sound := isSound_empty.run moves
  have before := isSound_empty.accounts_run moves
  have last := sound.accounts_act (.shutdown grace)
  refine ⟨sound.endsTasks apart, ?_, ?_⟩
  · rw [Barrier.act] at last
    rw [last.plans, before.plans]
    simp [Move.plan?]
  · rw [Barrier.act] at last
    rw [last.cutOffs, before.cutOffs, Nat.add_assoc]

/-- Tasks that end early, late, by breaking off or never, before and after a first shutdown. -/
def mixedMoves : List Move :=
  [.track ⟨true, some 10, false⟩, .track ⟨false, none, false⟩, .advance 5, .shutdown 20,
    .track ⟨true, some 30, true⟩, .advance 7, .track ⟨true, some 90, false⟩, .track ⟨false, none, true⟩]

theorem run_shutdown_endsTasks_mixed :
    (EndsTasks (empty.run mixedMoves).1 50 ((empty.run mixedMoves).1.shutdown 50).1
        ((empty.run mixedMoves).1.shutdown 50).2 ∧
      Accounts empty ((empty.run mixedMoves).1.shutdown 50).1 (mixedMoves.filterMap Move.plan?)
        ((empty.run mixedMoves).2 + ((empty.run mixedMoves).1.shutdown 50).2)) ∧
      (empty.run mixedMoves).2 = 1 ∧ ((empty.run mixedMoves).1.shutdown 50).2 = 2 :=
  ⟨run_shutdown_endsTasks mixedMoves 50 (by decide +kernel), by decide +kernel, by decide +kernel⟩

end Barrier

end DelayGenerator
