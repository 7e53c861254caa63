/-
This file follows a call from the turn in which it begins to the turn in which it ends. In between the caller
sends what its routine ensures, and others send nothing in its name.
-/

import DelayGenerator.Proofs.Bench.Deeds
import DelayGenerator.Proofs.Bench.Schedule
import DelayGenerator.Proofs.Bench.Sending

namespace DelayGenerator

open Journal (deeds outcomes)

theorem Caller.eq_finished_of_result? {α : Type} {caller : Caller α} {time : Nat} {value : α}
    (result : caller.result? = some (time, value)) : caller = .finished time value := by
  cases caller with
  | finished time value =>
      cases result
      rfl
  | _ => contradiction

namespace Traffic

variable {α σ : Type} {number : Nat} {routine : Routine α} {before last : Traffic α σ}

/-- A caller is at its turn and begins a routine. -/
def Begins (number : Nat) (routine : Routine α) (before : Traffic α σ) : Prop :=
  before.canTurn number = true ∧ ∃ caller, before.callers[number]? = some caller ∧
    caller.goOn number before.bench = Caller.run number routine before.bench

/-- A turn of one caller leaves the others where they are. -/
theorem turn_eq {caller : Caller α} (here : before.callers[number]? = some caller) :
    before.turn number =
      ⟨(caller.goOn number before.bench).1, before.callers.set number (caller.goOn number before.bench).2⟩ := by
  unfold turn
  rw [here]

/-- A caller stands where it has stood, and has done nothing, unless the step is its own turn. -/
theorem Step.own_or_same {after : Traffic α σ} (step : before.Step after) (number : Nat) :
    (before.canTurn number = true ∧ after = before.turn number) ∨
      (after.callers[number]? = before.callers[number]? ∧
        Journal.Grows (fun event => event.caller? ≠ some number) before.journal after.journal) := by
  have nobody {journal : List Entry}
      (grows : Journal.Grows (fun event => event.caller? = none) before.journal journal) :
      Journal.Grows (fun event => event.caller? ≠ some number) before.journal journal :=
    grows.mono fun event none => by simp [none]
  obtain ⟨move, possible⟩ := step
  cases move with
  | deliver index => exact Or.inr ⟨rfl, nobody (Bench.grows_deliver before.bench index)⟩
  | tick => exact Or.inr ⟨rfl, nobody (.one (by rfl) _)⟩
  | elapse => exact Or.inr ⟨rfl, nobody (.refl _ _)⟩
  | turn index =>
      by_cases own : index = number
      · subst own
        exact Or.inl ⟨possible, rfl⟩
      · refine Or.inr ?_
        change before.canTurn index = true at possible
        unfold canTurn at possible
        split at possible
        next caller here =>
          change (before.turn index).callers[number]? = _ ∧ Journal.Grows _ _ (before.turn index).journal
          rw [turn_eq here]
          exact ⟨List.getElem?_set_ne own, (Turn.of_goOn possible).grows_foreign (Ne.symm own)⟩
        next => contradiction

/-- A caller that has gone on stands where its routine has come to. -/
theorem getElem?_turn {caller : Caller α} (here : before.callers[number]? = some caller) :
    (before.turn number).callers[number]? = some (caller.goOn number before.bench).2 := by
  have inside := (List.getElem?_eq_some_iff.mp here).1
  rw [turn_eq here]
  simp [inside]

/-- A call that has been made later has begun at some turn of its caller, unless the caller still waits. -/
theorem Reaches.begun {first : Bench σ} (fresh : first.IsFresh) {routines : List (Routine α)} {delay : Nat}
    (called : routines[number]? = some (.pause delay routine))
    (reached : (Traffic.start first routines).Reaches last) :
    (outcomes number last.journal = [] ∧ (last.callers[number]? = some (.ready (.pause delay routine)) ∨
        ∃ wake, last.callers[number]? = some (.asleep wake routine))) ∨
      ∃ before, (Traffic.start first routines).Reaches before ∧ before.Begins number routine ∧
        outcomes number before.journal = [] ∧ (before.turn number).Reaches last := by
  induction reached with
  | start =>
      have empty : (Traffic.start first routines).journal = [] := fresh.journal
      refine Or.inl ⟨by rw [empty]; rfl, Or.inl ?_⟩
      simp [Traffic.start, called]
  | @next middle last reached step inductionHypothesis =>
      rcases inductionHypothesis with ⟨untold, waits⟩ | ⟨before, early, begins, untold, later⟩
      · rcases step.own_or_same number with ⟨possible, rfl⟩ | ⟨same, foreign⟩
        · -- The call begins now if the pause is over.
          rcases waits with here | ⟨wake, here⟩
          · by_cases none : delay = 0
            · have goesOn : (Caller.ready (.pause delay routine)).goOn number middle.bench =
                  Caller.run number routine middle.bench := by
                simp [Caller.goOn, Caller.run, none]
              exact Or.inr ⟨middle, reached, ⟨possible, _, here, goesOn⟩, untold, .start⟩
            · have sleeps : (Caller.ready (.pause delay routine)).goOn number middle.bench =
                  (middle.bench, .asleep (middle.bench.clock + delay) routine) := by
                simp [Caller.goOn, Caller.run, none]
              refine Or.inl ⟨?_, Or.inr ⟨_, (getElem?_turn here).trans (by rw [sleeps])⟩⟩
              rw [turn_eq here, sleeps]
              exact untold
          · exact Or.inr ⟨middle, reached, ⟨possible, _, here, rfl⟩, untold, .start⟩
        · rw [same, Journal.outcomes_of_foreign foreign]
          exact Or.inl ⟨untold, waits⟩
      · exact Or.inr ⟨before, early, begins, untold, later.next step⟩

/-- The call of a caller begins at one turn and ends at this one or a later one. -/
structure Spans (first last : Traffic α σ) (number : Nat) (routine : Routine α) (time : Nat) (value : α)
    (before ended : Traffic α σ) : Prop where
  early : first.Reaches before
  begins : before.Begins number routine
  untold : outcomes number before.journal = []
  runs : (before.turn number).Reaches ended
  finished : ended.callers[number]? = some (.finished time value)
  later : ended.Reaches last

theorem Begins.turn (begins : before.Begins number routine) : before.Step (before.turn number) :=
  .move (.turn number) begins.1

/-- Since its call began, a caller has sent what the journal tells of, and ensures the rest. -/
theorem Reaches.hasSent {holds : Option Bool → List Sending → α → Prop} (begins : before.Begins number routine)
    (ensures : routine.Ensures holds (some before.bench.isOpen) [])
    (reached : (before.turn number).Reaches last) :
    ∃ caller sendings ended, last.callers[number]? = some caller ∧
      outcomes number last.journal = outcomes number before.journal ++ sendings.filterMap Sending.exchange? ∧
      (before.turn number).Reaches ended ∧ ended.Reaches last ∧ ended.callers[number]? = some caller ∧
      caller.Ensures holds ended.bench.isOpen sendings := by
  induction reached with
  | start =>
      obtain ⟨possible, caller, here, goesOn⟩ := begins
      have known : ∀ isOpen ∈ some before.bench.isOpen, before.bench.isOpen = isOpen := by
        rintro isOpen ⟨⟩
        rfl
      obtain ⟨sendings, told, sent⟩ := Caller.hasSent_run routine before.bench known ensures
      rw [List.nil_append] at sent
      rw [← goesOn] at told sent
      have there := getElem?_turn here
      refine ⟨_, sendings, _, there, ?_, .start, .start, there, ?_⟩
      · rw [turn_eq here]
        exact told
      · rw [turn_eq here]
        exact sent
  | @next middle last reached step inductionHypothesis =>
      obtain ⟨caller, sendings, ended, here, told, early, late, there, sent⟩ := inductionHypothesis
      rcases step.own_or_same number with ⟨possible, rfl⟩ | ⟨same, foreign⟩
      · have waits : caller.isFinished = false := by
          rw [canTurn, here] at possible
          cases caller <;> first | rfl | contradiction
        have sends : Caller.HasSent holds number middle.bench sendings (caller.goOn number middle.bench) :=
          Caller.hasSent_goOn caller sent waits
        obtain ⟨more, toldMore, sentMore⟩ := sends
        have stands := getElem?_turn here
        refine ⟨_, sendings ++ more, _, stands, ?_, reached.next step, .start, stands, ?_⟩
        · rw [List.filterMap_append, ← List.append_assoc, ← told, turn_eq here]
          exact toldMore
        · rw [turn_eq here]
          exact sentMore
      · rw [same, Journal.outcomes_of_foreign foreign]
        exact ⟨caller, sendings, ended, here, told, early, late.next step, there, sent⟩

/-- Since its call began, a caller has done what is expected of its routine. -/
theorem Reaches.hasPerformed {expected : List Deed → Option α → Prop} (begins : before.Begins number routine)
    (performs : routine.Performs expected (deeds number before.journal))
    (reached : (before.turn number).Reaches last) :
    ∃ caller, last.callers[number]? = some caller ∧ caller.HasPerformed expected (deeds number last.journal) := by
  induction reached with
  | start =>
      obtain ⟨_, caller, here, goesOn⟩ := begins
      have performed := Caller.hasPerformed_run routine before.bench performs
      rw [← goesOn] at performed
      refine ⟨_, getElem?_turn here, ?_⟩
      rw [turn_eq here]
      exact performed
  | @next middle last reached step inductionHypothesis =>
      obtain ⟨caller, here, performed⟩ := inductionHypothesis
      rcases step.own_or_same number with ⟨possible, rfl⟩ | ⟨same, foreign⟩
      · refine ⟨_, getElem?_turn here, ?_⟩
        rw [turn_eq here]
        exact performed.goOn
      · rw [same, Journal.deeds_of_foreign foreign]
        exact ⟨caller, here, performed⟩

/-- A call that has ended has sent what the journal tells of, and what its routine ensures has come about. What
it ensures may depend on where it begins. -/
theorem Reaches.spans_of_begins (holds : Bench σ → Option Bool → List Sending → α → Prop) {first : Bench σ}
    (fresh : first.IsFresh) {routines : List (Routine α)} {delay time : Nat} {value : α}
    (called : routines[number]? = some (.pause delay routine))
    (ensures : ∀ {before : Traffic α σ}, before.Begins number routine → ∃ inner, before.Begins number inner ∧
      inner.Ensures (holds before.bench) (some before.bench.isOpen) [])
    (reached : (Traffic.start first routines).Reaches last)
    (finished : last.callers[number]? = some (.finished time value)) :
    ∃ before ended isOpen? sendings,
      (Traffic.start first routines).Spans last number routine time value before ended ∧
      outcomes number last.journal = sendings.filterMap Sending.exchange? ∧
      (∀ isOpen ∈ isOpen?, ended.bench.isOpen = isOpen) ∧ holds before.bench isOpen? sendings value := by
  rcases reached.begun fresh called with ⟨_, waits⟩ | ⟨before, early, begins, untold, later⟩
  · rw [finished] at waits
    rcases waits with here | ⟨wake, here⟩ <;> cases here
  · obtain ⟨inner, looks, ensures⟩ := ensures begins
    obtain ⟨caller, sendings, ended, here, told, runs, late, there, sent⟩ := Reaches.hasSent looks ensures later
    cases here.symm.trans finished
    obtain ⟨isOpen?, known, holds⟩ := sent
    rw [untold, List.nil_append] at told
    exact ⟨before, ended, isOpen?, sendings, ⟨early, begins, untold, runs, there, late⟩, told, known, holds⟩

/-- What a call that looks at the station first ensures may depend on what it finds. -/
theorem Reaches.spans {next : Station → Routine α} {holds : Station → Option Bool → List Sending → α → Prop}
    {first : Bench σ} (fresh : first.IsFresh) {routines : List (Routine α)} {delay time : Nat} {value : α}
    (called : routines[number]? = some (.pause delay (.look next)))
    (ensures : ∀ station, (next station).Ensures (holds station) (some station.port.isOpen) [])
    (reached : (Traffic.start first routines).Reaches last)
    (finished : last.callers[number]? = some (.finished time value)) :
    ∃ before ended isOpen? sendings,
      (Traffic.start first routines).Spans last number (.look next) time value before ended ∧
      outcomes number last.journal = sendings.filterMap Sending.exchange? ∧
      (∀ isOpen ∈ isOpen?, ended.bench.isOpen = isOpen) ∧
      holds before.bench.station isOpen? sendings value :=
  reached.spans_of_begins (fun bench => holds bench.station) fresh called
    (fun {before} begins => ⟨next before.bench.station, begins, ensures before.bench.station⟩) finished

end Traffic

end DelayGenerator
