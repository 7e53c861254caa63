/-
This file shows that a reset goes through its phases in order: what has to be acknowledged stops it, and what
need not be acknowledged does not.
-/

import DelayGenerator.Proofs.Operation.Reporting
import Mathlib.Data.List.Nodup

namespace DelayGenerator

namespace Call.Answer

def isRunning? : Answer → Option Bool
  | .isRunning running => some running
  | _ => none

theorem eq_isRunning {answer : Answer} {running : Bool} (given : answer.isRunning? = some running) :
    answer = .isRunning running := by
  cases answer <;> cases given
  rfl

end Call.Answer

namespace Operation

/-- What lays out the outputs, as it is written: every pulse lasts for one microsecond and begins ten after the one of
the channel before. -/
def layoutCommands : List String :=
  ["1", "2", "3", "4", "5", "6", "7", "8"].flatMap fun channel =>
    [":PULSE" ++ channel ++ ":WIDTH 1.000000E-6", ":PULSE" ++ channel ++ ":DELAY " ++ channel ++ ".000000E-5",
      ":PULSE" ++ channel ++ ":POL NORM", ":PULSE" ++ channel ++ ":STATE ON"]

/-- What starts the trigger, behind the pulse that announces it. -/
def chainCommands : List String := [":PULSE5:SYNC CHA", ":PULSE5:WIDTH 1.000000E-6", ":PULSE0:STATE ON"]

/-- What sets up the ion peak and unlocks the keypad. -/
def peakCommands : List String :=
  [":PULSE6:SYNC CHD", ":PULSE6:STATE ON", ":PULSE6:POL INV", ":PULSE6:WIDTH 4.000000E-9",
    ":PULSE6:DELAY 1.800000E-6", ":SYST:KLOCK OFF"]

theorem map_text_factoryLayout : Directive.factoryLayout.map Directive.text = layoutCommands := by decide +kernel

theorem map_text_triggerChain : Directive.triggerChain.map Directive.text = chainCommands := by decide +kernel

theorem map_text_ionPeak : Directive.ionPeak.map Directive.text = peakCommands := by decide +kernel

/-- Every command of a reset is sent as it is. -/
theorem stripLineEnd_of_reset {command : String}
    (member : command ∈ "*RST" :: (layoutCommands ++ (chainCommands ++ peakCommands))) :
    Text.stripLineEnd command = command := by
  have each : ∀ command ∈ "*RST" :: (layoutCommands ++ (chainCommands ++ peakCommands)),
      Text.stripLineEnd command = command := by
    decide +kernel
  exact each command member

/-- The directive of a trial as it is written. -/
def Trial.text (trial : Trial) : String := trial.directive.text

theorem Trial.map_text {trials : List Trial} {directives : List Directive} {commands : List String}
    (tried : trials.map Trial.directive = directives) (written : directives.map Directive.text = commands) :
    trials.map Trial.text = commands := by
  rw [← written, ← tried, List.map_map]
  rfl

/-- Commands have been tried one after the other, up to the first one that is not acknowledged. -/
structure AreRequired (commands : List String) (trials : List Trial) (accepted : Bool) : Prop where
  inOrder : trials.map Trial.text <+: commands
  gated : trials.Pairwise fun earlier _ => earlier.isAcknowledged = true
  whole : accepted = true → trials.map Trial.text = commands
  accepted : accepted = true ↔ ∀ trial ∈ trials, trial.isAcknowledged = true

theorem AreRequired.cons {commands : List String} {trials : List Trial} {accepted : Bool}
    (others : AreRequired commands trials accepted) {trial : Trial} (here : trial.isAcknowledged = true) :
    AreRequired (trial.text :: commands) (trial :: trials) accepted where
  inOrder := List.cons_prefix_cons.mpr ⟨rfl, others.inOrder⟩
  gated := List.pairwise_cons.mpr ⟨fun _ _ => here, others.gated⟩
  whole given := congrArg (trial.text :: ·) (others.whole given)
  accepted := by rw [others.accepted, List.forall_mem_cons, and_iff_right here]

/-- Different commands are all accepted if each of them has been acknowledged. -/
theorem AreRequired.accepted_iff {commands : List String} {trials : List Trial} {accepted : Bool}
    (required : AreRequired commands trials accepted) (distinct : commands.Nodup) :
    accepted = true ↔ ∀ command ∈ commands, ∃ trial ∈ trials, trial.text = command ∧
      trial.isAcknowledged = true := by
  constructor
  · intro given command member
    rw [← required.whole given] at member
    obtain ⟨trial, inside, named⟩ := List.mem_map.mp member
    exact ⟨trial, inside, named, required.accepted.mp given trial inside⟩
  · intro each
    refine required.accepted.mpr fun trial inside => ?_
    have named : trial.text ∈ commands := required.inOrder.subset (List.mem_map_of_mem inside)
    obtain ⟨other, within, same, acknowledged⟩ := each trial.text named
    -- A command has been tried only once.
    have apart : (trials.map Trial.text).Nodup := distinct.sublist required.inOrder.sublist
    rwa [← List.inj_on_of_nodup_map apart within inside same]

theorem ensures_requireAll (attempts : Nat) (directives : List Directive) (isOpen? : Option Bool)
    (earlier : List Sending) :
    (requireAll attempts directives).Ensures
      (fun after? sendings accepted => ∃ trials : List Trial,
        AreRequired (directives.map Directive.text) trials accepted ∧
        Adds attempts isOpen? earlier trials after? sendings)
      isOpen? earlier := by
  induction directives generalizing isOpen? earlier with
  | nil => exact ⟨[], ⟨List.prefix_rfl, List.Pairwise.nil, fun _ => rfl, by simp⟩, .nil⟩
  | cons directive others inductionHypothesis =>
      refine (ensures_acknowledge attempts directive isOpen? earlier).andThen ?_
      rintro middle? middle accepted ⟨trial, rfl, same, first⟩
      cases accepted with
      | true =>
          refine (inductionHypothesis middle? middle).mono ?_
          rintro after? sendings accepted ⟨trials, required, second⟩
          exact ⟨trial :: trials, required.cons same.symm, first.trans second⟩
      | false =>
          refine ⟨[trial], ⟨?_, List.pairwise_singleton _ _, nofun, by simp [← same]⟩, first⟩
          exact List.cons_prefix_cons.mpr ⟨rfl, List.nil_prefix⟩

/-- What has become of the directives of a reset, phase by phase. -/
structure Phases where
  factory : Trial
  layout : List Trial
  chain : List Trial
  ionPeak : List Trial

namespace Phases

/-- One phase comes after the other. -/
def trials (phases : Phases) : List Trial :=
  phases.factory :: (phases.layout ++ (phases.chain ++ phases.ionPeak))

/-- A phase is entered only if what comes before it and has to be acknowledged is acknowledged. The layout and the
ion peak are tried as a whole, and the trigger runs unless the reset itself or a part of its chain fails. -/
structure AreGated (phases : Phases) (running : Bool) : Prop where
  factory : phases.factory.text = "*RST"
  layout : phases.layout.map Trial.text = if phases.factory.isAcknowledged then layoutCommands else []
  chain : if phases.factory.isAcknowledged then AreRequired chainCommands phases.chain running
    else phases.chain = []
  ionPeak : phases.ionPeak.map Trial.text = if running then peakCommands else []
  /-- Once the trigger runs, this many directives have been tried in each phase. -/
  counts : running = true →
    phases.layout.length = 32 ∧ phases.chain.length = 3 ∧ phases.ionPeak.length = 6
  running : running = true ↔ phases.factory.isAcknowledged = true ∧
    ∀ command ∈ chainCommands, ∃ trial ∈ phases.chain, trial.text = command ∧ trial.isAcknowledged = true

end Phases

theorem length_eq_of_map_text {trials : List Trial} {commands : List String}
    (tried : trials.map Trial.text = commands) :
    trials.length = commands.length := by
  rw [← tried, List.length_map]

theorem ensures_restart (attempts : Nat) (isOpen? : Option Bool) (earlier : List Sending) :
    (restart attempts).Ensures
      (fun after? sendings running => ∃ phases : Phases, phases.AreGated running ∧
        Adds attempts isOpen? earlier phases.trials after? sendings)
      isOpen? earlier := by
  refine (ensures_acknowledge attempts .factoryReset isOpen? earlier).andThen ?_
  rintro first? early accepted ⟨factory, named, same, adds⟩
  have named : factory.text = "*RST" := congrArg Directive.text named
  have distinct : chainCommands.Nodup := by decide
  cases accepted with
  | false =>
      refine ⟨⟨factory, [], [], []⟩, ⟨named, ?_, ?_, rfl, nofun, ?_⟩, adds⟩
      all_goals simp [← same]
  | true =>
      refine (ensures_tryAll attempts Directive.factoryLayout first? early).andThen ?_
      rintro second? middle failed ⟨layout, laidOut, _, addsLayout⟩
      refine (ensures_requireAll attempts Directive.triggerChain second? middle).andThen ?_
      rintro third? late running ⟨chain, required, addsChain⟩
      have laidOut := Trial.map_text laidOut map_text_factoryLayout
      rw [map_text_triggerChain] at required
      have runs := required.accepted_iff distinct
      cases running with
      | false =>
          refine ⟨⟨factory, layout, chain, []⟩, ⟨named, ?_, ?_, rfl, nofun, ?_⟩, ?_⟩
          · simpa [← same] using laidOut
          · simpa [← same] using required
          · simpa only [← same, true_and] using runs
          · exact adds.trans (addsLayout.trans (addsChain.trans .nil))
      | true =>
          refine (ensures_tryAll attempts Directive.ionPeak third? late).andThen ?_
          rintro after? sendings failed ⟨ionPeak, setUp, _, addsPeak⟩
          have setUp := Trial.map_text setUp map_text_ionPeak
          refine ⟨⟨factory, layout, chain, ionPeak⟩, ⟨named, ?_, ?_, setUp, fun _ => ⟨?_, ?_, ?_⟩, ?_⟩, ?_⟩
          · simpa [← same] using laidOut
          · simpa [← same] using required
          · exact length_eq_of_map_text laidOut
          · exact length_eq_of_map_text (required.whole rfl)
          · exact length_eq_of_map_text setUp
          · simpa only [← same, true_and] using runs
          · exact adds.trans (addsLayout.trans (addsChain.trans addsPeak))

/-- A reset that finds the station open goes through its phases, and one that finds it closed does nothing. -/
inductive Resets (attempts : Nat) : (isOpen : Bool) → (after? : Option Bool) → List Sending → Call.Answer → Prop
  | tried {after? : Option Bool} {phases : Phases} {running : Bool} (gated : phases.AreGated running)
      (tried : AreTried attempts after? phases.trials) :
      Resets attempts true after? (phases.trials.flatMap Trial.sendings) (.isRunning running)
  | skipped {after? : Option Bool} : Resets attempts false after? [] (.isRunning false)

theorem ensures_reset (attempts : Nat) (isOpen : Bool) (isOpen? : Option Bool) :
    (if isOpen then .claim ((restart attempts).andThen fun running => .release (.done (.isRunning running)))
      else .done (.isRunning false) : Routine Call.Answer).Ensures (Resets attempts isOpen) isOpen? [] := by
  cases isOpen with
  | false => exact .skipped
  | true =>
      refine Routine.Ensures.andThen (ensures_restart attempts none []) ?_
      rintro after? sendings running ⟨phases, gated, adds⟩
      have sent : sendings = phases.trials.flatMap Trial.sendings := adds.sendings
      rw [sent]
      exact Resets.tried gated adds.tried

/-- The commands of a reset are tried in the order of its phases. -/
theorem Phases.AreGated.sublist {phases : Phases} {running : Bool} (gated : phases.AreGated running) :
    (phases.trials.map Trial.text).Sublist ("*RST" :: (layoutCommands ++ (chainCommands ++ peakCommands))) := by
  have layout : (phases.layout.map Trial.text).Sublist layoutCommands := by
    rw [gated.layout]
    split
    · exact List.Sublist.refl _
    · exact List.nil_sublist _
  have chain : (phases.chain.map Trial.text).Sublist chainCommands := by
    have entered := gated.chain
    split at entered
    · exact entered.inOrder.sublist
    · rw [entered]
      exact List.nil_sublist _
  have ionPeak : (phases.ionPeak.map Trial.text).Sublist peakCommands := by
    rw [gated.ionPeak]
    split
    · exact List.Sublist.refl _
    · exact List.nil_sublist _
  rw [trials, List.map_cons, List.map_append, List.map_append, gated.factory]
  exact (layout.append (chain.append ionPeak)).cons_cons _

end Operation

open Operation

namespace Traffic

/-- A reset has come to its end, having found the station open or closed. -/
structure ResetsInPhases {σ : Type} (first : Bench σ) (calls : List (Nat × Call)) (last : Traffic Call.Answer σ)
    (number attempts time : Nat) (value : Call.Answer) (before ended : Traffic Call.Answer σ) : Prop where
  spans : (launch first calls).Spans last number (Call.reset attempts).routine time value before ended
  whenOpen : before.bench.station.isOpen = true → ∃ phases running, value = .isRunning running ∧
    Phases.AreGated phases running ∧ Tries last number attempts ended.bench.isOpen phases.trials
  whenClosed : before.bench.station.isOpen = false → value = .isRunning false ∧
    Journal.outcomes number last.journal = []

/-- Whatever else is called for and happens to the line, a reset comes to its end. If it has found the station open,
the trigger runs if and only if the reset itself and each directive of the trigger chain have been acknowledged.
No phase begins before it may, and neither the layout nor the ion peak stops the reset. -/
theorem Reaches.resetsInPhases {σ : Type} {first : Bench σ} {calls : List (Nat × Call)}
    {last : Traffic Call.Answer σ} (fresh : first.IsFresh) (free : first.cycleLine = [])
    (steady : first.station.ticker.IsSteady) (reached : (launch first calls).Reaches last) :
    last.Ends ∧ ∀ {number delay attempts time : Nat} {value : Call.Answer},
      calls[number]? = some (delay, .reset attempts) →
      last.callers[number]? = some (.finished time value) →
      ∃ before ended, ResetsInPhases first calls last number attempts time value before ended := by
  refine ⟨reached.ends fresh free steady fun routine => isCyclic_of_mem_later, ?_⟩
  intro number delay attempts time value called finished
  have looks := Operation.reset_andThen attempts fun running => .done (Call.Answer.isRunning running)
  have later : (calls.map Call.later)[number]? = some (.pause delay (.look fun station =>
      if station.isOpen then
        .claim ((restart attempts).andThen fun running => .release (.done (.isRunning running)))
      else .done (.isRunning false))) := by
    rw [List.getElem?_map, called, ← looks]
    rfl
  obtain ⟨before, ended, after?, sendings, spans, told, known, resets⟩ :=
    reached.spans fresh later (fun station => ensures_reset attempts station.isOpen _) finished
  rw [← looks] at spans
  refine ⟨before, ended, spans, fun isOpen => ?_, fun closed => ?_⟩
  · rw [isOpen] at resets
    cases resets with
    | tried gated tried =>
        refine ⟨_, _, rfl, gated, reached.tries fresh finished ?_ tried known told⟩
        intro trial member
        exact stripLineEnd_of_reset (gated.sublist.subset (List.mem_map_of_mem member))
  · rw [closed] at resets
    cases resets
    exact ⟨rfl, told⟩

/-- The instrument accepts neither one part of the layout nor one of the ion peak, and its trigger runs. -/
theorem Reaches.resetsInPhases_layout :
    let respond : Unit → String → Unit × List String := fun _ command =>
      ((), if command = ":PULSE3:POL NORM" ∨ command = ":PULSE6:SYNC CHD" then ["?"] else ["ok"])
    let station : Station :=
      { Station.idle { Settings.defaults with tickPeriod := 0 } { Port.ready with isOpen := true } with
        connection := ⟨true, "", Settings.defaults.serial.baudRate⟩ }
    let first := Bench.facing station ⟨(), respond⟩ ⟨5, none⟩
    let calls := [(0, Call.reset 2)]
    let last := (launch first calls).play
      (.turn 0 :: (List.replicate 44 [Move.elapse, .deliver 0, .turn 0]).flatten)
    last.Ends ∧ ∃ time, last.callers[0]? = some (.finished time (.isRunning true)) ∧
      ∃ before ended, ResetsInPhases first calls last 0 2 time (.isRunning true) before ended := by
  intro respond station first calls last
  have here := Reaches.resetsInPhases (⟨rfl, rfl⟩ : first.IsFresh) rfl
    (Ticker.isSteady_start _ _) (reaches_play (launch first calls)
      (.turn 0 :: (List.replicate 44 [Move.elapse, .deliver 0, .turn 0]).flatten))
  have given : ((last.callers[0]?.bind Caller.result?).bind fun result => result.2.isRunning?) = some true := by
    decide +kernel
  obtain ⟨⟨time, value⟩, result, running⟩ := Option.bind_eq_some_iff.mp given
  obtain ⟨caller, standing, result⟩ := Option.bind_eq_some_iff.mp result
  have same : value = .isRunning true := Call.Answer.eq_isRunning running
  rw [Caller.eq_finished_of_result? result, same] at standing
  exact ⟨here.1, time, standing, here.2 rfl standing⟩

end Traffic

end DelayGenerator
