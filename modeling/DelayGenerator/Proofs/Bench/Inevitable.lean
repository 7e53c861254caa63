/-
This file follows a caller that is alone as long as no answer can come in. Apart from the ticker there is
only one way to go on then, and its exchanges time out.
-/

import DelayGenerator.Proofs.Bench.Alone
import DelayGenerator.Proofs.Bench.Transcript

namespace DelayGenerator

namespace Traffic

variable {α σ : Type} {bench : Bench σ}

/-- The ticker fires, a delivery comes in, the only caller goes on, or time passes while it waits. -/
theorem step_alone_cases {caller : Caller α} {after : Traffic α σ}
    (step : (alone (bench, caller)).Step after) :
    after = alone (bench.onStation Station.tick, caller) ∨
    (∃ index, bench.canDeliver index = true ∧ after = alone (bench.deliver index, caller)) ∨
    (caller.canGoOn bench 0 = true ∧ after = alone (caller.goOn 0 bench)) ∨
    (caller.canGoOn bench 0 = false ∧
      ∃ time, after = alone (bench.onStation fun station => { station with clock := time }, caller) ∧
        (∀ delivery ∈ bench.deliveries, time ≤ delivery.due) ∧
        ∀ deadline, caller.deadline? = some deadline → time ≤ deadline) := by
  obtain ⟨move, possible⟩ := step
  cases move with
  | turn index =>
      cases index with
      | zero => exact Or.inr (Or.inr (Or.inl ⟨possible, rfl⟩))
      | succ index => contradiction
  | deliver index => exact Or.inr (Or.inl ⟨index, possible, rfl⟩)
  | tick => exact Or.inl rfl
  | elapse =>
      obtain ⟨time, made, _, _, least⟩ := clock_elapse possible
      refine Or.inr (Or.inr (Or.inr ⟨?_, time, made, ?_, ?_⟩))
      · rw [Bool.eq_false_iff]
        intro goesOn
        have busy : (alone (bench, caller)).isBusy = true := isBusy_iff.mpr (Or.inl ⟨0, goesOn⟩)
        simp [can, busy] at possible
      · intro delivery coming
        exact least delivery.due (mem_deadlines.mpr (Or.inr (Or.inl ⟨delivery, coming, rfl⟩)))
      · intro deadline waits
        exact least deadline (mem_deadlines.mpr (Or.inl ⟨caller, List.mem_singleton.mpr rfl, waits⟩))

/-- Before a delivery is due, the ticker fires, the only caller goes on, or time passes while it waits. -/
theorem step_alone {caller : Caller α} {after : Traffic α σ}
    (late : ∀ delivery ∈ bench.deliveries, bench.clock < delivery.due)
    (step : (alone (bench, caller)).Step after) :
    after = alone (bench.onStation Station.tick, caller) ∨
    (caller.canGoOn bench 0 = true ∧ after = alone (caller.goOn 0 bench)) ∨
    (caller.canGoOn bench 0 = false ∧
      ∃ time, after = alone (bench.onStation fun station => { station with clock := time }, caller) ∧
        ∀ deadline, caller.deadline? = some deadline → time ≤ deadline) := by
  rcases step_alone_cases step with ticks | ⟨index, possible, _⟩ | goesOn | ⟨stuck, time, same, _, least⟩
  · exact Or.inl ticks
  · unfold Bench.canDeliver at possible
    split at possible
    · rename_i delivery here
      have come : delivery.due ≤ bench.clock := of_decide_eq_true possible
      exact absurd come (Nat.not_le_of_lt (late delivery (List.mem_of_getElem? here)))
    · contradiction
  · exact Or.inr (Or.inl goesOn)
  · exact Or.inr (Or.inr ⟨stuck, time, same, least⟩)

/-- If nothing is on its way, a caller that is alone begins sooner or later. -/
theorem Reaches.run_of_start {property : Bench σ → Prop} {routine : Routine α} {last : Traffic α σ}
    (silent : ∀ bench, property bench → bench.deliveries = [])
    (kept : ∀ bench, property bench → property (bench.onStation Station.tick)) (holds : property bench)
    (reached : (Traffic.start bench [routine]).Reaches last) (finished : last.isFinished = true) :
    ∃ begun, property begun ∧ (alone (Caller.run 0 routine begun)).Reaches last := by
  have way : (∃ ready, property ready ∧ last = alone (ready, .ready routine)) ∨
      ∃ begun, property begun ∧ (alone (Caller.run 0 routine begun)).Reaches last := by
    clear finished
    induction reached with
    | start => exact Or.inl ⟨bench, holds, rfl⟩
    | next reached step inductionHypothesis =>
        rcases inductionHypothesis with ⟨ready, holds, rfl⟩ | ⟨begun, holds, runs⟩
        · have late : ∀ delivery ∈ ready.deliveries, ready.clock < delivery.due := by
            simp [silent ready holds]
          rcases step_alone late step with rfl | ⟨_, rfl⟩ | ⟨stuck, _⟩
          · exact Or.inl ⟨_, kept ready holds, rfl⟩
          · exact Or.inr ⟨ready, holds, .start⟩
          · contradiction
        · exact Or.inr ⟨begun, holds, .next runs step⟩
  rcases way with ⟨ready, _, rfl⟩ | begun
  · contradiction
  · exact begun

end Traffic

namespace Bench

variable {α σ : Type} {answers : σ → String → List String} {pace : Pace} {bound clock deadline : Nat}
  {deliveries : List Delivery} {framer : Framer} {bench : Bench σ} {command : String}
  {next : Except Fault String → Routine α} {last : Traffic α σ}

/-- If no answer can come in before the deadline, a caller that waits gives up at the deadline. -/
theorem IsWaiting.givesUp (waiting : bench.IsWaiting answers pace bound clock deliveries framer)
    (early : clock ≤ deadline) (late : ∀ delivery ∈ deliveries, deadline < delivery.due)
    (reached : (Traffic.alone (bench, .awaiting command deadline next)).Reaches last)
    (finished : last.isFinished = true) :
    ∃ after : Bench σ, after.IsFree answers pace bound deadline deliveries framer ∧
      (Traffic.alone (Caller.run 0 (next (.error (.replyTimedOut command))) after)).Reaches last := by
  have way : (∃ (now : Nat) (later : Bench σ), now ≤ deadline ∧
        later.IsWaiting answers pace bound now deliveries framer ∧
        last = Traffic.alone (later, .awaiting command deadline next)) ∨
      ∃ after : Bench σ, after.IsFree answers pace bound deadline deliveries framer ∧
        (Traffic.alone (Caller.run 0 (next (.error (.replyTimedOut command))) after)).Reaches last := by
    clear finished
    induction reached with
    | start => exact Or.inl ⟨clock, bench, early, waiting, rfl⟩
    | next reached step inductionHypothesis =>
        rcases inductionHypothesis with ⟨now, later, early, waiting, rfl⟩ | ⟨after, free, runs⟩
        · have lateLater : ∀ delivery ∈ later.deliveries, later.clock < delivery.due := by
            rw [waiting.deliveries, waiting.clock]
            exact fun delivery coming => Nat.lt_of_le_of_lt early (late delivery coming)
          rcases Traffic.step_alone lateLater step with rfl | ⟨goesOn, rfl⟩ | ⟨_, time, rfl, least⟩
          · exact Or.inl ⟨now, _, early, waiting.tick, rfl⟩
          · -- Nothing has woken the caller, so the deadline has come.
            change (later.station.link.isWoken || decide (deadline ≤ later.clock)) = true at goesOn
            rw [waiting.asleep, waiting.clock, Bool.false_or, decide_eq_true_eq] at goesOn
            have now' : now = deadline := Nat.le_antisymm early goesOn
            subst now'
            refine Or.inr ⟨later.givenUp command, waiting.givenUp command, ?_⟩
            rw [Caller.goOn, waiting.takeReply_eq]
            exact .start
          · have passed : (later.onStation fun station => { station with clock := time }).IsWaiting answers
                pace bound time deliveries framer := { waiting with clock := rfl }
            exact Or.inl ⟨time, _, least deadline rfl, passed, rfl⟩
        · exact Or.inr ⟨after, free, .next runs step⟩
  rcases way with ⟨_, _, _, _, rfl⟩ | after
  · contradiction
  · exact after

/-- If no answer can come in before the bound, every run goes on with an exchange that has timed out. -/
theorem IsFree.timesOut_of_reaches (free : bench.IsFree answers pace bound clock deliveries framer)
    (positive : 0 < bound)
    (late : ∀ delivery ∈
      deliveries ++ coming pace clock (answers bench.farEnd.state (Text.stripLineEnd command)),
      clock + bound < delivery.due)
    (reached : (Traffic.alone (Caller.run 0 (.ask command next) bench)).Reaches last)
    (finished : last.isFinished = true) :
    ∃ after : Bench σ,
      after.IsFree answers pace bound (clock + bound)
        (deliveries ++ coming pace clock (answers bench.farEnd.state (Text.stripLineEnd command)))
        framer ∧
      (Traffic.alone (Caller.run 0 (next (.error (.replyTimedOut (Text.stripLineEnd command))))
        after)).Reaches last := by
  rw [free.run_ask positive] at reached
  exact (free.asked (Text.stripLineEnd command)).givesUp (Nat.le_add_right clock bound) late reached
    finished

/-- A connected bench with nobody at it and nothing on its way. -/
structure IsReady (answers : σ → String → List String) (pace : Pace) (bound clock : Nat)
    (framer : Framer) (bench : Bench σ) : Prop
    extends bench.IsFree answers pace bound clock [] framer where
  connected : bench.station.connection.isOpen = true
  cycleLine : bench.cycleLine = []

theorem IsReady.station_isOpen (ready : bench.IsReady answers pace bound clock framer) :
    bench.station.isOpen = true := by
  rw [Station.isOpen, ready.connected, ready.isOpen]
  rfl

end Bench

namespace Traffic

variable {α σ : Type}

/-- Every caller is somewhere in its routine. -/
def IsWithin (routines : List (Routine α)) (traffic : Traffic α σ) : Prop :=
  ∀ (index : Nat) (caller : Caller α), traffic.callers[index]? = some caller →
    ∃ routine transcript rest, routines[index]? = some routine ∧
      routine.Leads True transcript rest ∧ caller.At rest

/-- Whatever has happened before, callers keep to their routines. -/
theorem Reaches.isWithin {first : Bench σ} {routines : List (Routine α)} {last : Traffic α σ}
    (reached : (Traffic.start first routines).Reaches last) : last.IsWithin routines := by
  refine reached.invariant (IsWithin routines) ?_ ?_
  · intro index caller here
    obtain ⟨routine, found, rfl⟩ := ready_of_start here
    exact ⟨routine, [], routine, found, .here routine, rfl⟩
  · intro before after beat within
    cases beat with
    | @advance index caller next bench here advance =>
        refine forall_set ?_ fun other standing _ there => within other standing there
        obtain ⟨routine, transcript, rest, found, leads, stands⟩ := within index caller here
        obtain ⟨items, later, goesOn, standsLater, _⟩ := advance.leads (fun _ => trivial) stands
        exact ⟨routine, _, later, found, leads.trans goesOn, standsLater⟩
    | deliver index possible => exact within
    | tick possible => exact within
    | elapse possible => exact within

end Traffic

/-- What a caller that is alone finds in the end is what its routine leads to. -/
theorem Bench.leads_of_reaches {α σ : Type} {routine : Routine α} {bench after : Bench σ} {time : Nat}
    {value : α} (reached : (Traffic.alone (Caller.run 0 routine bench)).Reaches
      ⟨after, [.finished time value]⟩) :
    ∃ transcript, routine.Leads True transcript (.done value) := by
  have started : (Traffic.start bench [routine]).Reaches
      (Traffic.alone (Caller.run 0 routine bench)) := .next .start (.move (.turn 0) rfl)
  obtain ⟨same, transcript, rest, found, leads, rfl⟩ := (started.trans reached).isWithin 0 _ rfl
  cases found
  exact ⟨transcript, leads⟩

end DelayGenerator
