/-
This file takes the turns of callers apart. A turn consists of advances, each of which is one thing
that a caller does without looking up. What every advance keeps is kept by every run.
-/

import DelayGenerator.Bench.Traffic
import Mathlib.Logic.Relation

namespace DelayGenerator

namespace Bench

variable {σ : Type}

/-- The port has been asked for a write. -/
def touched (bench : Bench σ) : Bench σ :=
  bench.onStation fun station => { station with port := station.port.touched }

/-- The exchange of a caller has begun, and its write is asked for. -/
def started (caller : Nat) (command : String) (bench : Bench σ) : Bench σ :=
  ((bench.record (.began caller command bench.station.link.queue.next)).onLink Link.arm).touched

/-- The exchange of a caller has ended, and the next one has the turn. -/
def concluded (caller : Nat) (command : String) (outcome : Except Fault QueuedLine)
    (bench : Bench σ) : Bench σ :=
  record (.ended caller command outcome) { bench with sendLine := bench.sendLine.tail }

/-- What the caller learns of a write that has failed. -/
def writeFault (command : String) : Fault → Fault
  | .notConnected => .notConnected
  | _ => .writeTimedOut command

/-- The write of an exchange has failed. -/
def writeFailed (caller : Nat) (command : String) : Fault → Bench σ → Bench σ
  | .notConnected, bench => bench.concluded caller command (.error .notConnected)
  | _, bench =>
    (bench.onLink Link.countWriteTimeout).concluded caller command (.error (.writeTimedOut command))

theorem failWrite_eq (caller : Nat) (command : String) (fault : Fault) (bench : Bench σ) :
    bench.failWrite caller command fault =
      (bench.writeFailed caller command fault, .ended (.error (writeFault command fault))) := by
  cases fault <;> rfl

theorem begin_eq (caller : Nat) (command : String) (bench : Bench σ) :
    bench.begin caller command =
      match bench.station.port.write bench.clock bench.station.link.writeBound with
      | .failed fault => (bench.started caller command).failWrite caller command fault
      | .ends finish result =>
        if finish ≤ bench.clock then (bench.started caller command).endWrite caller command result
        else (bench.started caller command, .writing finish result) := by
  have asked : ((bench.record (.began caller command bench.station.link.queue.next)).onLink
      Link.arm).startWrite bench.station.link.writeBound =
        (bench.started caller command,
          bench.station.port.write bench.clock bench.station.link.writeBound) := rfl
  have bound : ((bench.record (.began caller command bench.station.link.queue.next)).onLink
      Link.arm).station.link.writeBound = bench.station.link.writeBound := rfl
  simp only [begin, bound, asked]
  cases bench.station.port.write bench.clock bench.station.link.writeBound <;> rfl

/-- Only what is on its way can come in. -/
theorem lt_of_canDeliver {bench : Bench σ} {index : Nat} (possible : bench.canDeliver index = true) :
    index < bench.deliveries.length := by
  rw [canDeliver] at possible
  split at possible
  next delivery there => exact (List.getElem?_eq_some_iff.mp there).1
  next => contradiction

@[simp] theorem clock_transfer (caller : Nat) (command : String) (bench : Bench σ) :
    (bench.transfer caller command).clock = bench.clock := rfl

@[simp] theorem link_transfer (caller : Nat) (command : String) (bench : Bench σ) :
    (bench.transfer caller command).station.link = bench.station.link := rfl

end Bench

/-- One thing that a caller does, known by its number. -/
inductive Advance {α σ : Type} (number : Nat) :
    Bench σ → Caller α → Bench σ → Caller α → Prop where
  | finish (bench : Bench σ) (value : α) :
      Advance number bench (.ready (.done value)) bench (.finished bench.clock value)
  | look (bench : Bench σ) (next : Station → Routine α) :
      Advance number bench (.ready (.look next)) bench (.ready (next bench.station))
  | act (bench : Bench σ) (act : Act) (next : Routine α) :
      Advance number bench (.ready (.act act next))
        (bench.onStation (Station.perform number act)) (.ready next)
  | refuse (bench : Bench σ) (command : String) (next : Except Fault String → Routine α)
      (closed : bench.isOpen = false) :
      Advance number bench (.ready (.ask command next)) bench (.ready (next (.error .notConnected)))
  | join (bench : Bench σ) (command : String) (next : Except Fault String → Routine α)
      (isOpen : bench.isOpen = true) :
      Advance number bench (.ready (.ask command next))
        { bench with sendLine := bench.sendLine ++ [number] }
        (.queued (Text.stripLineEnd command) next)
  | start {bench : Bench σ} {command : String} {next : Except Fault String → Routine α}
      {finish : Nat} {result : Except Fault Unit} (first : bench.sendLine.head? = some number)
      (course : bench.station.port.write bench.clock bench.station.link.writeBound =
        .ends finish result) :
      Advance number bench (.queued command next)
        (bench.started number command) (.writing command finish result next)
  | failAtOnce {bench : Bench σ} {command : String} {next : Except Fault String → Routine α}
      {fault : Fault} (first : bench.sendLine.head? = some number)
      (course : bench.station.port.write bench.clock bench.station.link.writeBound = .failed fault) :
      Advance number bench (.queued command next)
        ((bench.started number command).writeFailed number command fault)
        (.ready (next (.error (Bench.writeFault command fault))))
  | write {bench : Bench σ} {command : String} {next : Except Fault String → Routine α}
      {finish : Nat} (due : finish ≤ bench.clock) :
      Advance number bench (.writing command finish (.ok ()) next)
        (bench.transfer number command)
        (.awaiting command (bench.clock + bench.station.link.replyBound) next)
  | failLate {bench : Bench σ} {command : String} {next : Except Fault String → Routine α}
      {finish : Nat} {fault : Fault} (due : finish ≤ bench.clock) :
      Advance number bench (.writing command finish (.error fault) next)
        (bench.writeFailed number command fault)
        (.ready (next (.error (Bench.writeFault command fault))))
  | takeLine {bench : Bench σ} {command : String} {next : Except Fault String → Routine α}
      {deadline : Nat} {line : QueuedLine} {others : List QueuedLine}
      (due : bench.station.link.isWoken = true ∨ deadline ≤ bench.clock)
      (first : bench.station.link.queue.first? = some (line, others)) :
      Advance number bench (.awaiting command deadline next)
        ((bench.onLink Link.empty).concluded number command (.ok line))
        (.ready (next (.ok line.text)))
  | wakeInVain {bench : Bench σ} {command : String} {next : Except Fault String → Routine α}
      {deadline : Nat} (empty : bench.station.link.queue.first? = none)
      (woken : bench.station.link.isWoken = true) :
      Advance number bench (.awaiting command deadline next)
        (bench.concluded number command (.error (.wokenWithoutLine command)))
        (.ready (next (.error (.wokenWithoutLine command))))
  | timeOut {bench : Bench σ} {command : String} {next : Except Fault String → Routine α}
      {deadline : Nat} (empty : bench.station.link.queue.first? = none)
      (asleep : bench.station.link.isWoken = false) (due : deadline ≤ bench.clock) :
      Advance number bench (.awaiting command deadline next)
        ((bench.onLink Link.countReplyTimeout).concluded number command
          (.error (.replyTimedOut command)))
        (.ready (next (.error (.replyTimedOut command))))
  | failTransmission {bench : Bench σ} {bytes : List UInt8} {bound : Nat}
      {next : Except Fault Unit → Routine α} {fault : Fault}
      (course : bench.station.port.write bench.clock bound = .failed fault) :
      Advance number bench (.ready (.transmit bytes bound next)) bench.touched
        (.ready (next (.error fault)))
  | startTransmission {bench : Bench σ} {bytes : List UInt8} {bound finish : Nat}
      {next : Except Fault Unit → Routine α} {result : Except Fault Unit}
      (course : bench.station.port.write bench.clock bound = .ends finish result) :
      Advance number bench (.ready (.transmit bytes bound next)) bench.touched
        (.transmitting bytes finish result next)
  | endTransmission {bench : Bench σ} {bytes : List UInt8} {finish : Nat}
      {next : Except Fault Unit → Routine α} {result : Except Fault Unit}
      (due : finish ≤ bench.clock) :
      Advance number bench (.transmitting bytes finish result next)
        (bench.endTransmission number bytes result) (.ready (next result))
  | skip (bench : Bench σ) (next : Routine α) :
      Advance number bench (.ready (.pause 0 next)) bench (.ready next)
  | sleep (bench : Bench σ) {duration : Nat} (next : Routine α) (positive : 0 < duration) :
      Advance number bench (.ready (.pause duration next)) bench
        (.asleep (bench.clock + duration) next)
  | wake {bench : Bench σ} {time : Nat} {routine : Routine α} (due : time ≤ bench.clock) :
      Advance number bench (.asleep time routine) bench (.ready routine)
  | rest (bench : Bench σ) (next : Routine α) :
      Advance number bench (.ready (.rest next)) bench (.ready next)
  | enlist (bench : Bench σ) (next : Routine α) :
      Advance number bench (.ready (.claim next))
        { bench with cycleLine := bench.cycleLine ++ [number] } (.claiming next)
  | claim {bench : Bench σ} {routine : Routine α} (first : bench.cycleLine.head? = some number) :
      Advance number bench (.claiming routine) (bench.record (.claimed number)) (.ready routine)
  | release (bench : Bench σ) (next : Routine α) :
      Advance number bench (.ready (.release next))
        (Bench.record (.released number) { bench with cycleLine := bench.cycleLine.tail })
        (.ready next)

/-- A turn consists of one advance or several. -/
def Turn {α σ : Type} (number : Nat) : Bench σ × Caller α → Bench σ × Caller α → Prop :=
  Relation.TransGen fun before after => Advance number before.1 before.2 after.1 after.2

namespace Turn

variable {α σ : Type}

theorem one {number : Nat} {before after : Bench σ} {caller next : Caller α}
    (advance : Advance number before caller after next) :
    Turn number (before, caller) (after, next) :=
  Relation.TransGen.single advance

theorem cons {number : Nat} {before middle : Bench σ} {caller next : Caller α}
    {last : Bench σ × Caller α} (advance : Advance number before caller middle next)
    (later : Turn number (middle, next) last) : Turn number (before, caller) last :=
  Relation.TransGen.head advance later

section

variable {number : Nat} {command : String} {next : Except Fault String → Routine α}
  (runs : ∀ outcome (bench : Bench σ),
    Turn number (bench, .ready (next outcome)) (Caller.run number (next outcome) bench))

include runs

theorem of_takeReply {bench : Bench σ} {deadline : Nat}
    (due : bench.station.link.isWoken = true ∨ deadline ≤ bench.clock) :
    Turn number (bench, .awaiting command deadline next)
      (Caller.follow number command next (bench.takeReply number command)) := by
  unfold Bench.takeReply
  split
  next line others first => exact cons (.takeLine due first) (runs _ _)
  next empty =>
    split
    next woken => exact cons (.wakeInVain empty woken) (runs _ _)
    next asleep =>
      have asleep : bench.station.link.isWoken = false := by simpa using asleep
      have late : deadline ≤ bench.clock := by simpa [asleep] using due
      exact cons (.timeOut empty asleep late) (runs _ _)

theorem of_endWrite {bench : Bench σ} {finish : Nat} {result : Except Fault Unit}
    (due : finish ≤ bench.clock) :
    Turn number (bench, .writing command finish result next)
      (Caller.follow number command next (bench.endWrite number command result)) := by
  cases result with
  | error fault =>
      rw [Bench.endWrite, Bench.failWrite_eq]
      exact cons (.failLate due) (runs _ _)
  | ok done =>
      cases done
      change Turn number _
        (Caller.follow number command next ((bench.transfer number command).listen number command))
      simp only [Bench.listen]
      split
      next ends =>
        refine cons (.write due) (of_takeReply runs ?_)
        rcases Bool.or_eq_true_iff.mp ends with woken | unbounded
        · exact Or.inl woken
        · have unbounded : bench.station.link.replyBound = 0 := by simpa using unbounded
          exact Or.inr (by simp [unbounded])
      next => exact one (.write due)

theorem of_begin {bench : Bench σ} (first : bench.sendLine.head? = some number) :
    Turn number (bench, .queued command next)
      (Caller.follow number command next (bench.begin number command)) := by
  rw [Bench.begin_eq]
  split
  next fault course =>
    rw [Bench.failWrite_eq]
    exact cons (.failAtOnce first course) (runs _ _)
  next finish result course =>
    split
    next due => exact cons (.start first course) (of_endWrite runs due)
    next => exact one (.start first course)

theorem of_ask (bench : Bench σ) :
    Turn number (bench, .ready (.ask command next)) (Caller.run number (.ask command next) bench) := by
  by_cases isOpen : bench.isOpen = true
  · simp only [Caller.run, isOpen, Bool.not_true, Bool.false_eq_true, if_false]
    split
    next empty =>
      have alone : bench.sendLine = [] := by simpa using empty
      refine cons (.join bench command next isOpen) ?_
      rw [alone]
      exact of_begin runs rfl
    next => exact one (.join bench command next isOpen)
  · have closed : bench.isOpen = false := by simpa using isOpen
    simp only [Caller.run, closed]
    exact cons (.refuse bench command next closed) (runs _ _)

end

theorem of_transmit {number : Nat} {bytes : List UInt8} {bound : Nat}
    {next : Except Fault Unit → Routine α}
    (runs : ∀ outcome (bench : Bench σ),
      Turn number (bench, .ready (next outcome)) (Caller.run number (next outcome) bench))
    (bench : Bench σ) :
    Turn number (bench, .ready (.transmit bytes bound next))
      (Caller.run number (.transmit bytes bound next) bench) := by
  simp only [Caller.run, Bench.startWrite]
  split
  next after fault course =>
    obtain ⟨rfl, fails⟩ := Prod.mk.inj course
    exact cons (.failTransmission fails) (runs _ _)
  next after finish result course =>
    obtain ⟨rfl, ends⟩ := Prod.mk.inj course
    split
    next due => exact cons (.startTransmission ends) (cons (.endTransmission due) (runs _ _))
    next => exact one (.startTransmission ends)

/-- A routine runs in advances. -/
theorem of_run (number : Nat) (routine : Routine α) (bench : Bench σ) :
    Turn number (bench, .ready routine) (Caller.run number routine bench) := by
  induction routine generalizing bench with
  | done value => exact one (.finish bench value)
  | look next inductionHypothesis => exact cons (.look bench next) (inductionHypothesis _ _)
  | act act next inductionHypothesis => exact cons (.act bench act next) (inductionHypothesis _)
  | ask command next inductionHypothesis => exact of_ask inductionHypothesis bench
  | transmit bytes bound next inductionHypothesis => exact of_transmit inductionHypothesis bench
  | pause duration next inductionHypothesis =>
      by_cases zero : duration = 0
      · subst zero
        exact cons (.skip bench next) (inductionHypothesis _)
      · have positive : 0 < duration := Nat.pos_of_ne_zero zero
        simp only [Caller.run, beq_iff_eq, zero, if_false]
        exact one (.sleep bench next positive)
  | rest next inductionHypothesis => exact one (.rest bench next)
  | claim next inductionHypothesis =>
      simp only [Caller.run]
      split
      next empty =>
        have alone : bench.cycleLine = [] := by simpa using empty
        refine cons (.enlist bench next) ?_
        rw [alone]
        exact cons (.claim rfl) (inductionHypothesis _)
      next => exact one (.enlist bench next)
  | release next inductionHypothesis => exact cons (.release bench next) (inductionHypothesis _)

/-- A caller that can go on makes a turn. -/
theorem of_goOn {number : Nat} {bench : Bench σ} {caller : Caller α}
    (possible : caller.canGoOn bench number = true) :
    Turn number (bench, caller) (caller.goOn number bench) := by
  have runs (next : Except Fault String → Routine α) (outcome : Except Fault String)
      (bench : Bench σ) := of_run number (next outcome) bench
  cases caller with
  | ready routine => exact of_run number routine bench
  | asleep wake routine =>
      exact cons (.wake (by simpa [Caller.canGoOn] using possible)) (of_run number routine bench)
  | queued command next =>
      exact of_begin (runs next) (by simpa [Caller.canGoOn] using possible)
  | writing command finish result next =>
      exact of_endWrite (runs next) (by simpa [Caller.canGoOn] using possible)
  | awaiting command deadline next =>
      exact of_takeReply (runs next) (by simpa [Caller.canGoOn] using possible)
  | transmitting bytes finish result next =>
      exact cons (.endTransmission (by simpa [Caller.canGoOn] using possible)) (of_run _ _ _)
  | claiming routine =>
      exact cons (.claim (by simpa [Caller.canGoOn] using possible)) (of_run _ _ _)
  | finished time value => simp [Caller.canGoOn] at possible

end Turn

namespace Traffic

variable {α σ : Type}

/-- At the start every caller is ready to begin its own routine. -/
theorem ready_of_start {first : Bench σ} {routines : List (Routine α)} {index : Nat}
    {caller : Caller α} (here : (start first routines).callers[index]? = some caller) :
    ∃ routine, routines[index]? = some routine ∧ caller = .ready routine := by
  simp only [start, List.getElem?_map, Option.map_eq_some_iff] at here
  obtain ⟨routine, found, rfl⟩ := here
  exact ⟨routine, found, rfl⟩

/-- What holds of a caller that has gone on and of all others holds of every caller. -/
theorem forall_set {callers : List (Caller α)} {index : Nat} {next : Caller α} {property : Nat → Caller α → Prop}
    (own : property index next)
    (others : ∀ other caller, other ≠ index → callers[other]? = some caller → property other caller) :
    ∀ other caller, (callers.set index next)[other]? = some caller → property other caller := by
  intro other caller there
  rw [List.getElem?_set] at there
  split at there
  next same =>
    split at there
    · cases there
      exact same ▸ own
    · contradiction
  next differ => exact others other caller (Ne.symm differ) there

/-- One thing that happens: a caller advances, a chunk comes in, the ticker fires or time passes. -/
inductive Beat (before : Traffic α σ) : Traffic α σ → Prop where
  | advance {index : Nat} {caller next : Caller α} {bench : Bench σ}
      (here : before.callers[index]? = some caller)
      (advance : Advance index before.bench caller bench next) :
      Beat before ⟨bench, before.callers.set index next⟩
  | deliver (index : Nat) (possible : before.can (.deliver index) = true) :
      Beat before (before.make (.deliver index))
  | tick (possible : before.can .tick = true) : Beat before (before.make .tick)
  | elapse (possible : before.can .elapse = true) : Beat before (before.make .elapse)

/-- What relates the traffic before and after every advance, leads through a turn. -/
theorem transGen_of_turn {related : Traffic α σ → Traffic α σ → Prop}
    (relates : ∀ (before : Traffic α σ) (index : Nat) (caller next : Caller α) (bench : Bench σ),
      before.callers[index]? = some caller → Advance index before.bench caller bench next →
        related before ⟨bench, before.callers.set index next⟩)
    {number : Nat} {first last : Bench σ × Caller α} (turn : Turn number first last)
    (callers : List (Caller α)) (here : callers[number]? = some first.2) :
    Relation.TransGen related ⟨first.1, callers⟩ ⟨last.1, callers.set number last.2⟩ := by
  induction turn with
  | single advance => exact .single (relates _ _ _ _ _ here advance)
  | @tail middle last earlier advance inductionHypothesis =>
      have inside := (List.getElem?_eq_some_iff.mp here).1
      have there : (callers.set number middle.2)[number]? = some middle.2 := by
        simp [inside]
      have related := relates ⟨middle.1, callers.set number middle.2⟩ _ _ _ _ there advance
      rw [List.set_set] at related
      exact inductionHypothesis.tail related

/-- A move consists of at least one beat. -/
theorem Step.beats {before after : Traffic α σ} (step : before.Step after) :
    Relation.TransGen Beat before after := by
  obtain ⟨move, possible⟩ := step
  cases move with
  | deliver index => exact .single (.deliver index possible)
  | tick => exact .single (.tick possible)
  | elapse => exact .single (.elapse possible)
  | turn index =>
      change before.canTurn index = true at possible
      change Relation.TransGen Beat before (before.turn index)
      unfold canTurn at possible
      unfold turn
      split at possible
      next caller here =>
        dsimp only
        exact transGen_of_turn (fun _ _ _ _ _ here advance => .advance here advance)
          (Turn.of_goOn possible) before.callers here
      next => contradiction

/-- Every run is a run of beats. -/
theorem Reaches.beats {first last : Traffic α σ} (reached : first.Reaches last) :
    Relation.ReflTransGen Beat first last := by
  induction reached with
  | start => exact .refl
  | next _ step inductionHypothesis => exact inductionHypothesis.trans step.beats.to_reflTransGen

theorem invariant_of_beats {first last : Traffic α σ} (beats : Relation.ReflTransGen Beat first last)
    (holds : Traffic α σ → Prop) (initially : holds first)
    (kept : ∀ before after, before.Beat after → holds before → holds after) : holds last := by
  induction beats with
  | refl => exact initially
  | tail _ beat inductionHypothesis => exact kept _ _ beat inductionHypothesis

/-- What holds at first and is kept by every beat holds after every run. -/
theorem Reaches.invariant {first last : Traffic α σ} (reached : first.Reaches last)
    (holds : Traffic α σ → Prop) (initially : holds first)
    (kept : ∀ before after, before.Beat after → holds before → holds after) : holds last :=
  invariant_of_beats reached.beats holds initially kept

end Traffic

end DelayGenerator
