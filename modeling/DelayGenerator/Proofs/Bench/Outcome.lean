/-
This file says what a routine of a caller that is alone comes to, whatever happens meanwhile. What parts of
the routine come to is put together to what the whole comes to.
-/

import DelayGenerator.Proofs.Bench.Ending
import DelayGenerator.Proofs.Bench.Exchange

namespace DelayGenerator

/-- Some run comes to its end. -/
theorem Traffic.Ends.exists_finished {α σ : Type} {traffic : Traffic α σ} (ends : traffic.Ends) :
    ∃ last, traffic.Reaches last ∧ last.isFinished = true := by
  induction ends with
  | @finished traffic all => exact ⟨traffic, .start, all⟩
  | @goesOn traffic possible later inductionHypothesis =>
      obtain ⟨move, can⟩ := possible
      have step : traffic.Step (traffic.make move) := .move move can
      obtain ⟨last, reached, finished⟩ := inductionHypothesis _ step
      exact ⟨last, .trans (.next .start step) reached, finished⟩

namespace Bench

variable {α β σ : Type}

/-- Nothing is on its way at a bench of this kind, and it stays of this kind while nobody goes on. -/
structure IsLasting (kind : Bench σ → Prop) : Prop where
  silent : ∀ bench, kind bench → bench.deliveries = []
  tick : ∀ bench, kind bench → kind (bench.onStation Station.tick)
  elapse : ∀ bench time, kind bench → kind (bench.onStation fun station => { station with clock := time })

theorem isLasting_isIdle (expected : Frame σ) (held : Framer) : IsLasting (IsIdle expected held) where
  silent := fun _ idle => idle.deliveries
  tick := fun _ idle => idle.tick
  elapse := fun _ time idle => idle.setClock time

namespace IsLasting

variable {kind : Bench σ → Prop} {bench : Bench σ} {last : Traffic α σ}

/-- A caller that only waits to go on with a routine goes on sooner or later. -/
theorem goesOn (lasting : IsLasting kind) {caller : Caller α} {routine : Routine α}
    (follows : ∀ bench : Bench σ, caller.goOn 0 bench = Caller.run 0 routine bench)
    (unfinished : caller.isFinished = false) (holds : kind bench)
    (reached : (Traffic.alone (bench, caller)).Reaches last) (finished : last.isFinished = true) :
    ∃ begun, kind begun ∧ (Traffic.alone (Caller.run 0 routine begun)).Reaches last := by
  have way : (∃ later, kind later ∧ last = Traffic.alone (later, caller)) ∨
      ∃ begun, kind begun ∧ (Traffic.alone (Caller.run 0 routine begun)).Reaches last := by
    clear finished
    induction reached with
    | start => exact Or.inl ⟨bench, holds, rfl⟩
    | next _ step inductionHypothesis =>
        rcases inductionHypothesis with ⟨later, holds, rfl⟩ | ⟨begun, holds, runs⟩
        · rcases Traffic.step_alone_cases step with
            rfl | ⟨index, possible, _⟩ | ⟨_, rfl⟩ | ⟨_, time, rfl, _⟩
          · exact Or.inl ⟨_, lasting.tick later holds, rfl⟩
          · simp [canDeliver, lasting.silent later holds] at possible
          · rw [follows]
            exact Or.inr ⟨later, holds, .start⟩
          · exact Or.inl ⟨_, lasting.elapse later time holds, rfl⟩
        · exact Or.inr ⟨begun, holds, .next runs step⟩
  rcases way with ⟨later, _, rfl⟩ | begun
  · have same : (Traffic.alone (later, caller)).isFinished = caller.isFinished := Bool.and_true _
    rw [same, unfinished] at finished
    contradiction
  · exact begun

/-- A caller that is done stays so. -/
theorem stays (lasting : IsLasting kind) {time : Nat} {value : α} (holds : kind bench)
    (reached : (Traffic.alone (bench, .finished time value)).Reaches last) :
    last.callers = [.finished time value] ∧ kind last.bench := by
  have way : ∃ later, kind later ∧ last = Traffic.alone (later, .finished time value) := by
    induction reached with
    | start => exact ⟨bench, holds, rfl⟩
    | next _ step inductionHypothesis =>
        obtain ⟨later, holds, rfl⟩ := inductionHypothesis
        rcases Traffic.step_alone_cases step with
          rfl | ⟨index, possible, _⟩ | ⟨goesOn, _⟩ | ⟨_, time, rfl, _⟩
        · exact ⟨_, lasting.tick later holds, rfl⟩
        · simp [canDeliver, lasting.silent later holds] at possible
        · contradiction
        · exact ⟨_, lasting.elapse later time holds, rfl⟩
  obtain ⟨later, holds, rfl⟩ := way
  exact ⟨rfl, holds⟩

end IsLasting

/-- Whatever happens meanwhile, a routine comes to a value, and a bench of one kind becomes one of another
kind. -/
def Secures (before after : Bench σ → Prop) (routine : Routine α) (value : α) : Prop :=
  ∀ bench, before bench →
    ∀ (β : Type) (follow : α → Routine β) (last : Traffic β σ),
      (Traffic.alone (Caller.run 0 (routine.andThen follow) bench)).Reaches last →
      last.isFinished = true →
      ∃ later, after later ∧ (Traffic.alone (Caller.run 0 (follow value) later)).Reaches last

namespace Secures

variable {before middle after : Bench σ → Prop} {routine other : Routine α} {value : α}

theorem done (value : α) (kind : Bench σ → Prop) : Secures kind kind (.done value) value :=
  fun bench holds _ _ _ reached _ => ⟨bench, holds, reached⟩

theorem andThen {following : α → Routine β} {result : β} (first : Secures before middle routine value)
    (second : Secures middle after (following value) result) :
    Secures before after (routine.andThen following) result := by
  intro bench holds γ follow last reached finished
  rw [Routine.andThen_assoc] at reached
  obtain ⟨between, holds, reached⟩ := first bench holds γ _ last reached finished
  exact second between holds γ follow last reached finished

/-- A routine that goes on as another one at once comes to the same. -/
theorem of_run (later : Secures middle after routine value)
    (same : ∀ bench, before bench → ∃ changed, middle changed ∧ ∀ (β : Type) (follow : α → Routine β),
      Caller.run 0 (other.andThen follow) bench = Caller.run 0 (routine.andThen follow) changed) :
    Secures before after other value := by
  intro bench holds β follow last reached finished
  obtain ⟨changed, holds, same⟩ := same bench holds
  rw [same] at reached
  exact later changed holds β follow last reached finished

/-- While nothing is on its way, a pause changes nothing. -/
theorem pause (lasting : IsLasting before) (later : Secures before after routine value) (duration : Nat) :
    Secures before after (.pause duration routine) value := by
  intro bench holds β follow last reached finished
  by_cases none : duration = 0
  · subst none
    exact later bench holds β follow last reached finished
  · have sleeps : Caller.run 0 (.pause duration (routine.andThen follow)) bench =
        (bench, .asleep (bench.clock + duration) (routine.andThen follow)) := by
      simp [Caller.run, none]
    change (Traffic.alone (Caller.run 0 (.pause duration (routine.andThen follow)) bench)).Reaches
      last at reached
    rw [sleeps] at reached
    obtain ⟨begun, holds, runs⟩ := lasting.goesOn (fun _ => rfl) rfl holds reached finished
    exact later begun holds β follow last runs finished

/-- However a run goes on that comes to its end, the routine has come to its value. -/
theorem of_reaches (secures : Secures before after routine value) (first : IsLasting before)
    (final : IsLasting after) {bench : Bench σ} (holds : before bench) {last : Traffic α σ}
    (reached : (Traffic.start bench [routine]).Reaches last) (finished : last.isFinished = true) :
    (∃ time, last.callers = [.finished time value]) ∧ after last.bench := by
  have begins (bench : Bench σ) : (Caller.ready routine).goOn 0 bench = Caller.run 0 routine bench := rfl
  obtain ⟨begun, holds, runs⟩ := first.goesOn begins rfl holds reached finished
  rw [← Routine.andThen_done routine] at runs
  obtain ⟨later, holds, runs⟩ := secures begun holds α .done last runs finished
  obtain ⟨stands, holds⟩ := final.stays holds runs
  exact ⟨⟨_, stands⟩, holds⟩

/-- A caller goes on with what its exchange ends with. -/
theorem ask {expected : Frame σ} {held : Framer} {command : String}
    {next : Except Fault String → Routine α} (prompt : expected.IsPrompt)
    (whole : Delivery.ComesWhole held expected.pace.chunkSize
      (expected.answer (Text.stripLineEnd command)))
    (later : Secures (IsIdle (expected.taken (Text.stripLineEnd command))
        (held.feed (Delivery.payload (expected.answer (Text.stripLineEnd command)))).1) after
      (next (expected.reply (Text.stripLineEnd command)
        (held.feed (Delivery.payload (expected.answer (Text.stripLineEnd command)))).2)) value) :
    Secures (IsIdle expected held) after (.ask command next) value := by
  intro bench idle β follow last reached finished
  obtain ⟨between, idle, reached⟩ := idle.answered prompt whole reached finished
  exact later between idle β follow last reached finished

end Secures

/-- Every run of a single caller comes to its end, and then the caller has come to a value. -/
def Gives (bench : Bench σ) (routine : Routine α) (value : α) : Prop :=
  ∀ last : Traffic α σ, (Traffic.start bench [routine]).Reaches last →
    last.Ends ∧ (last.isFinished = true → ∃ time, last.callers = [.finished time value])

namespace Gives

variable {bench : Bench σ} {routine : Routine α} {value other : α}

theorem eq_of_reaches (gives : bench.Gives routine value) {after : Bench σ} {time : Nat}
    (reached : (Traffic.start bench [routine]).Reaches ⟨after, [.finished time other]⟩) : other = value := by
  obtain ⟨_, same⟩ := (gives _ reached).2 rfl
  cases same
  rfl

/-- A caller comes to one value only. -/
theorem eq (gives : bench.Gives routine value) (also : bench.Gives routine other) : other = value := by
  obtain ⟨last, reached, finished⟩ := (gives _ .start).1.exists_finished
  obtain ⟨time, stands⟩ := (also last reached).2 finished
  obtain ⟨after, callers⟩ := last
  cases stands
  exact gives.eq_of_reaches reached

end Gives

/-- What is secured is given in the end. -/
theorem Secures.gives {before after : Bench σ → Prop} {routine : Routine α} {value : α}
    (secures : Secures before after routine value) (first : IsLasting before) (final : IsLasting after)
    {bench : Bench σ} (holds : before bench) (fresh : bench.IsFresh) (free : bench.cycleLine = [])
    (steady : bench.station.ticker.IsSteady) (cyclic : routine.IsCyclic True True (· ≠ .inside) .before) :
    bench.Gives routine value := by
  intro last reached
  refine ⟨reached.ends fresh free steady fun inside member => ?_, fun finished => ?_⟩
  · rw [List.mem_singleton.mp member]
    exact cyclic
  · exact (secures.of_reaches first final holds reached finished).1

end Bench

end DelayGenerator
