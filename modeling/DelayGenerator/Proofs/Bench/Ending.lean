/-
This file shows that every run comes to the point where all callers have finished, also while the ticker
fires: between two advances of callers only a limited time can pass.
-/

import DelayGenerator.Proofs.Bench.Alone
import DelayGenerator.Proofs.Bench.Cycle

namespace DelayGenerator

namespace Ticker

/-- Nobody makes a ticker fire without a period. -/
theorem IsSteady.perform {σ : Type} {bench : Bench σ} (steady : bench.station.ticker.IsSteady)
    (caller : Nat) (act : Act) :
    (bench.onStation (Station.perform caller act)).station.ticker.IsSteady := by
  cases act with
  | stopTicker => exact fun due fires => by contradiction
  | _ => exact steady

end Ticker

theorem Advance.isSteady {α σ : Type} {number : Nat} {bench after : Bench σ}
    {caller next : Caller α} (advance : Advance number bench caller after next)
    (steady : bench.station.ticker.IsSteady) : after.station.ticker.IsSteady := by
  cases advance with
  | act action follow => exact steady.perform number action
  | @failAtOnce command follow fault => cases fault <;> exact steady
  | @failLate command follow finish fault => cases fault <;> exact steady
  | @endTransmission bytes finish follow result => cases result <;> exact steady
  | _ => exact steady

namespace Traffic

variable {α σ : Type}

/-- The latest instant for which a caller waits. -/
def horizon (traffic : Traffic α σ) : Nat :=
  (traffic.callers.filterMap Caller.deadline?).foldr max 0

theorem le_horizon {traffic : Traffic α σ} {caller : Caller α} {deadline : Nat}
    (waiting : caller ∈ traffic.callers) (waits : caller.deadline? = some deadline) :
    deadline ≤ traffic.horizon := by
  have member : deadline ∈ traffic.callers.filterMap Caller.deadline? :=
    List.mem_filterMap.mpr ⟨caller, waiting, waits⟩
  unfold horizon
  generalize traffic.callers.filterMap Caller.deadline? = deadlines at member
  induction deadlines with
  | nil => contradiction
  | cons first others inductionHypothesis =>
      rcases List.mem_cons.mp member with rfl | later
      · exact Nat.le_max_left _ _
      · exact Nat.le_trans (inductionHypothesis later) (Nat.le_max_right _ _)

/-- How often the ticker may fire up to the horizon, or now. -/
def firings (traffic : Traffic α σ) : Nat :=
  match traffic.bench.station.ticker.due with
  | some due => max traffic.horizon traffic.clock + 1 - due
  | none => 0

theorem firings_eq {traffic : Traffic α σ} {due : Nat}
    (fires : traffic.bench.station.ticker.due = some due) :
    traffic.firings = max traffic.horizon traffic.clock + 1 - due := by
  rw [firings, fires]

/-- How much may happen before a caller advances: chunks come in, the ticker fires, and time passes up to
the horizon. -/
def patience (traffic : Traffic α σ) : Nat :=
  Delivery.load traffic.bench.deliveries + (traffic.horizon - traffic.clock) + traffic.firings

theorem patience_deliver {traffic : Traffic α σ} {index : Nat}
    (possible : traffic.can (.deliver index) = true) :
    (traffic.make (.deliver index)).patience < traffic.patience := by
  have less := Bench.load_deliver possible
  have clock : (traffic.make (.deliver index)).clock = traffic.clock := Bench.clock_deliver _ _
  have ticker : (traffic.make (.deliver index)).bench.station.ticker = traffic.bench.station.ticker := by
    change (traffic.bench.deliver index).station.ticker = _
    unfold Bench.deliver
    split <;> rfl
  have horizon : (traffic.make (.deliver index)).horizon = traffic.horizon := rfl
  have firings : (traffic.make (.deliver index)).firings = traffic.firings := by
    rw [Traffic.firings, Traffic.firings, ticker, clock, horizon]
  rw [patience, patience, firings, clock, horizon]
  change Delivery.load (traffic.bench.deliver index).deliveries + _ + _ < _
  omega

theorem patience_tick {traffic : Traffic α σ} (steady : traffic.bench.station.ticker.IsSteady)
    (possible : traffic.can .tick = true) : (traffic.make .tick).patience < traffic.patience := by
  obtain ⟨due, fires, come⟩ := Ticker.isDue_iff.mp possible
  have positive := steady due fires
  have later : (traffic.make .tick).bench.station.ticker.due =
      some (due + traffic.bench.station.ticker.period) := by
    change traffic.bench.station.ticker.due.map _ = _
    rw [fires, Option.map_some]
  have come : due ≤ traffic.clock := come
  rw [patience, patience, firings_eq later, firings_eq fires]
  change Delivery.load traffic.bench.deliveries + (traffic.horizon - traffic.clock) +
    (max traffic.horizon traffic.clock + 1 - (due + traffic.bench.station.ticker.period)) < _
  omega

/-- Time passes no further than to the horizon, if somebody waits for an instant. -/
theorem patience_elapse {traffic : Traffic α σ} (possible : traffic.can .elapse = true)
    {caller : Caller α} {deadline : Nat} (waiting : caller ∈ traffic.callers)
    (waits : caller.deadline? = some deadline) :
    (traffic.make .elapse).patience < traffic.patience := by
  obtain ⟨time, made, later, _, least⟩ := clock_elapse possible
  have early := least deadline (mem_deadlines.mpr (Or.inl ⟨caller, waiting, waits⟩))
  have inside := le_horizon waiting waits
  have horizon : max traffic.horizon time = max traffic.horizon traffic.clock := by omega
  have firings : (traffic.setClock time).firings = traffic.firings := by
    unfold Traffic.firings
    change (match traffic.bench.station.ticker.due with
      | some due => max traffic.horizon time + 1 - due
      | none => 0) = _
    rw [horizon]
  rw [made, patience, patience, firings]
  change Delivery.load traffic.bench.deliveries + (traffic.horizon - time) + _ < _
  omega

/-- Callers that claim and release the turn in pairs have come this far, and the ticker has a period. -/
structure IsSound (start : Link) (routines : List (Routine α)) (traffic : Traffic α σ) : Prop where
  cyclic : ∀ routine ∈ routines, routine.IsCyclic True True (· ≠ .inside) .before
  regular : traffic.IsRegular start
  ordered : traffic.IsOrdered
  traced : traffic.IsTraced (fun _ _ => True) (fun _ => True) routines
  steady : traffic.bench.station.ticker.IsSteady

namespace IsSound

variable {start : Link} {routines : List (Routine α)} {before after traffic : Traffic α σ}

theorem fits (sound : traffic.IsSound start routines) {index : Nat} {caller : Caller α}
    (here : traffic.callers[index]? = some caller) :
    ∃ rest, caller.At rest ∧
      rest.IsCyclic True True (· ≠ .inside) (Journal.cycleStage index traffic.journal) := by
  obtain ⟨rest, stands, fits, _⟩ := sound.traced.cyclic here fun routine found =>
    sound.cyclic routine (List.mem_of_getElem? found)
  exact ⟨rest, stands, fits⟩

theorem of_fresh {first : Bench σ} (fresh : first.IsFresh) (free : first.cycleLine = [])
    (steady : first.station.ticker.IsSteady)
    (cyclic : ∀ routine ∈ routines, routine.IsCyclic True True (· ≠ .inside) .before) :
    (Traffic.start first routines).IsSound first.station.link routines where
  cyclic := cyclic
  regular := .of_fresh fresh routines
  ordered := .of_fresh fresh free routines
  traced := .of_fresh fresh routines
  steady := steady

theorem beat (sound : before.IsSound start routines) (beat : before.Beat after) :
    after.IsSound start routines where
  cyclic := sound.cyclic
  regular := sound.regular.beat beat
  ordered := sound.ordered.beat beat fun _ _ here => sound.fits here
  traced := sound.traced.beat beat trivial fun _ => trivial
  steady := by
    cases beat with
    | advance here advance => exact advance.isSteady sound.steady
    | deliver index possible =>
        change (before.bench.deliver index).station.ticker.IsSteady
        unfold Bench.deliver
        split <;> exact sound.steady
    | tick possible => exact sound.steady.fire
    | elapse possible => exact sound.steady

theorem step (sound : before.IsSound start routines) (step : before.Step after) :
    after.IsSound start routines := by
  have beats := step.beats
  clear step
  induction beats with
  | single first => exact sound.beat first
  | tail _ next inductionHypothesis => exact inductionHypothesis.beat next

/-- While somebody has not finished and nobody can go on, somebody waits for an instant. -/
theorem waits (sound : traffic.IsSound start routines)
    (still : ∀ (other : Nat) (standing : Caller α), traffic.callers[other]? = some standing →
      standing.canGoOn traffic.bench other = false)
    (unfinished : traffic.isFinished = false) :
    ∃ standing ∈ traffic.callers, ∃ deadline, standing.deadline? = some deadline := by
  obtain ⟨caller, member, goesOn⟩ := List.all_eq_false.mp unfinished
  obtain ⟨index, here⟩ := List.mem_iff_getElem?.mp member
  rcases sound.regular.waits_of_still still here with finished | ⟨routine, rfl⟩ | waits
  · exact absurd finished goesOn
  · -- The first in the line for cycles could begin one, or runs one and waits in it.
    have inLine : index ∈ traffic.bench.cycleLine :=
      (sound.ordered.inLine index).mpr ⟨_, here, Or.inl rfl⟩
    obtain ⟨first, others, line⟩ := List.exists_cons_of_ne_nil (List.ne_nil_of_mem inLine)
    have inside : first ∈ traffic.bench.cycleLine := by rw [line]; exact List.mem_cons_self
    obtain ⟨standing, there, way⟩ := (sound.ordered.inLine first).mp inside
    obtain ⟨rest, stands, fits⟩ := sound.fits there
    have notClaiming : standing.isClaiming = false := by
      cases standing with
      | claiming routine =>
          have stuck := still first _ there
          simp [Caller.canGoOn, line] at stuck
      | _ => rfl
    rcases sound.regular.waits_of_still still there with finished | ⟨routine, rfl⟩ | waits
    · cases standing with
      | finished time value =>
          cases stands
          rcases way with claims | runs
          · contradiction
          · exact absurd runs fits
      | _ => contradiction
    · contradiction
    · exact waits
  · exact waits

/-- While somebody has not finished, something can happen. -/
theorem possible (sound : traffic.IsSound start routines) (unfinished : traffic.isFinished = false) :
    ∃ move, traffic.can move = true := by
  apply Classical.byContradiction
  intro stuck
  have stuck (move : Move) : traffic.can move = false := by
    simpa using fun possible => stuck ⟨move, possible⟩
  obtain ⟨standing, waiting, deadline, waits⟩ := sound.waits (canGoOn_of_stuck stuck) unfinished
  obtain ⟨index, here⟩ := List.mem_iff_getElem?.mp waiting
  rcases sound.regular.finished_of_stuck stuck here with finished | ⟨routine, rfl⟩
  · cases standing <;> contradiction
  · contradiction

end IsSound

/-- Something happens while somebody has not finished. -/
def Strives (before after : Traffic α σ) : Prop := before.isFinished = false ∧ before.Beat after

/-- A move before all callers have finished. -/
theorem Step.strives {before after : Traffic α σ} (step : before.Step after)
    (unfinished : before.isFinished = false) : Relation.TransGen Strives before after := by
  obtain ⟨move, possible⟩ := step
  cases move with
  | deliver index => exact .single ⟨unfinished, .deliver index possible⟩
  | tick => exact .single ⟨unfinished, .tick possible⟩
  | elapse => exact .single ⟨unfinished, .elapse possible⟩
  | turn index =>
      obtain ⟨caller, here, goesOn⟩ := canTurn_iff.mp possible
      have made : before.make (.turn index) =
          ⟨(caller.goOn index before.bench).1,
            before.callers.set index (caller.goOn index before.bench).2⟩ := by
        simp only [make, turn, here]
      rw [made]
      refine transGen_of_turn ?_ (Turn.of_goOn goesOn) before.callers here
      intro between index caller next bench here advance
      refine ⟨List.all_eq_false.mpr ⟨caller, List.mem_of_getElem? here, ?_⟩, .advance here advance⟩
      cases advance <;> exact Bool.false_ne_true

/-- Callers do not go on for ever, and neither does the ticker alone. -/
theorem IsSound.acc_strives {start : Link} {routines : List (Routine α)} (bench : Bench σ)
    (callers : List (Caller α)) (sound : IsSound start routines ⟨bench, callers⟩) :
    Acc (fun after before : Traffic α σ => before.Strives after) ⟨bench, callers⟩ := by
  have accessible : Acc (Caller.OneFollows σ) callers := Caller.acc_list callers
  -- The callers advance finitely often, and meanwhile the patience shrinks.
  induction accessible generalizing bench with
  | intro callers _ callersHypothesis =>
      generalize measured : patience ⟨bench, callers⟩ = measure
      induction measure using Nat.strongRecOn generalizing bench with
      | ind measure patienceHypothesis =>
          constructor
          rintro after ⟨unfinished, beat⟩
          have kept := sound.beat beat
          cases beat with
          | advance here advance =>
              exact callersHypothesis _ ⟨_, _, _, here, ⟨_, _, _, advance⟩, rfl⟩ _ kept
          | deliver index possible =>
              have less := patience_deliver possible
              rw [measured] at less
              exact patienceHypothesis _ less _ kept rfl
          | tick possible =>
              have less := patience_tick sound.steady possible
              rw [measured] at less
              exact patienceHypothesis _ less _ kept rfl
          | elapse possible =>
              have still (other : Nat) (standing : Caller α) (there : callers[other]? = some standing) :
                  standing.canGoOn bench other = false := by
                rw [Bool.eq_false_iff]
                intro goesOn
                have busy : isBusy ⟨bench, callers⟩ = true :=
                  isBusy_iff.mpr (Or.inl ⟨other, canTurn_iff.mpr ⟨standing, there, goesOn⟩⟩)
                simp [can, busy] at possible
              obtain ⟨standing, waiting, deadline, waits⟩ := sound.waits still unfinished
              have less := patience_elapse possible waiting waits
              rw [measured] at less
              exact patienceHypothesis _ less _ kept rfl

/-- However the run goes on, all callers have finished at some point. -/
inductive Ends : Traffic α σ → Prop where
  | finished {traffic : Traffic α σ} (all : traffic.isFinished = true) : Ends traffic
  | goesOn {traffic : Traffic α σ} (possible : ∃ move, traffic.can move = true)
      (later : ∀ after, traffic.Step after → Ends after) : Ends traffic

theorem IsSound.ends {start : Link} {routines : List (Routine α)} {traffic : Traffic α σ}
    (sound : traffic.IsSound start routines) : traffic.Ends := by
  have accessible := (sound.acc_strives traffic.bench traffic.callers).transGen
  change Acc _ traffic at accessible
  induction accessible with
  | intro traffic _ inductionHypothesis =>
      cases unfinished : traffic.isFinished with
      | true => exact .finished unfinished
      | false =>
          refine .goesOn (sound.possible unfinished) fun after step => ?_
          have strives := step.strives unfinished
          exact inductionHypothesis after (Relation.transGen_swap.mpr strives) (sound.step step)

/-- Callers that claim and release the turn in pairs come to their ends in every run. -/
theorem Reaches.ends {first : Bench σ} (fresh : first.IsFresh) (free : first.cycleLine = [])
    (steady : first.station.ticker.IsSteady) {routines : List (Routine α)}
    (cyclic : ∀ routine ∈ routines, routine.IsCyclic True True (· ≠ .inside) .before)
    {last : Traffic α σ} (reached : (Traffic.start first routines).Reaches last) : last.Ends := by
  have sound : last.IsSound first.station.link routines :=
    reached.invariant (IsSound first.station.link routines) (.of_fresh fresh free steady cyclic)
      fun _ _ beat sound => sound.beat beat
  exact sound.ends

end Traffic

end DelayGenerator
