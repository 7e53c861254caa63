/-
This file says what a caller has done by the time it waits. A turn is over only when the caller waits or has
finished, so nobody meets a caller between two acts that it does one right after the other.
-/

import DelayGenerator.Proofs.Bench.Alone
import DelayGenerator.Proofs.Bench.Trace

namespace DelayGenerator

/-- What a caller does of its own accord: it begins a cycle, or it acts at the station. -/
inductive Deed where
  | claim
  | act (act : Act)
  deriving DecidableEq

def Deed.act? : Deed → Option Act
  | claim => none
  | act action => some action

def Event.deed? (number : Nat) : Event → Option Deed
  | .did caller act => if caller = number then some (.act act) else none
  | .claimed caller => if caller = number then some .claim else none
  | _ => none

theorem Event.eq_did_of_deed? {event : Event} {number : Nat} {act : Act}
    (deed : event.deed? number = some (.act act)) : event = .did number act := by
  cases event with
  | did caller own =>
      obtain ⟨rfl, same⟩ := Option.ite_some_none_eq_some.mp deed
      cases same
      rfl
  | claimed caller =>
      obtain ⟨_, same⟩ := Option.ite_some_none_eq_some.mp deed
      contradiction
  | _ => contradiction

/-- What a caller has done, from the first to the latest. -/
def Journal.deeds (number : Nat) (journal : List Entry) : List Deed := collect (Event.deed? number) journal

/-- What is not the doing of a caller is no deed of it. -/
theorem Event.deed?_foreign {event : Event} {number : Nat} (foreign : event.caller? ≠ some number) :
    event.deed? number = none := by
  cases event with
  | did caller act => exact if_neg fun same => foreign (congrArg some same)
  | claimed caller => exact if_neg fun same => foreign (congrArg some same)
  | _ => rfl

theorem Event.deed?_of_not_aside {event : Event} (number : Nat) (exchange : event.isAside = false) :
    event.deed? number = none := by
  cases event <;> first | rfl | contradiction

namespace Journal

variable {number : Nat} {journal last : List Entry}

theorem deeds_of_foreign (grows : Grows (fun event => event.caller? ≠ some number) journal last) :
    deeds number last = deeds number journal :=
  (grows.mono fun _ => Event.deed?_foreign).collect_eq

/-- An exchange is no deed. -/
theorem deeds_of_exchange (grows : Grows (fun event => event.isAside = false) journal last) (number : Nat) :
    deeds number last = deeds number journal :=
  (grows.mono fun _ => Event.deed?_of_not_aside number).collect_eq

theorem deeds_did (time number : Nat) (action : Act) (journal : List Entry) :
    deeds number (⟨time, .did number action⟩ :: journal) = deeds number journal ++ [.act action] :=
  collect_cons_some _ (if_pos rfl)

theorem deeds_claimed (time number : Nat) (journal : List Entry) :
    deeds number (⟨time, .claimed number⟩ :: journal) = deeds number journal ++ [.claim] :=
  collect_cons_some _ (if_pos rfl)

end Journal

namespace Bench

variable {σ : Type}

theorem deeds_perform (bench : Bench σ) (number : Nat) (action : Act) :
    Journal.deeds number (bench.onStation (Station.perform number action)).journal =
      Journal.deeds number bench.journal ++ [.act action] := by
  obtain ⟨middle, nobody, recorded⟩ := bench.journal_perform number action
  rw [recorded, Journal.deeds_did, Journal.deeds_of_foreign (nobody.mono fun event none => by simp [none])]

section

variable (caller : Nat) (command : String) (bench : Bench σ)

theorem grows_takeReply :
    Journal.Grows (fun event => event.isAside = false) bench.journal
      (bench.takeReply caller command).1.journal := by
  unfold takeReply
  split
  · exact .one (by rfl) _
  · split
    · exact .one (by rfl) _
    · exact .one (by rfl) _

theorem grows_listen :
    Journal.Grows (fun event => event.isAside = false) bench.journal
      (bench.listen caller command).1.journal := by
  simp only [listen]
  split
  · exact grows_takeReply caller command bench
  · exact .refl _ _

theorem grows_failWrite (fault : Fault) :
    Journal.Grows (fun event => event.isAside = false) bench.journal
      (bench.failWrite caller command fault).1.journal := by
  cases fault <;> exact .one (by rfl) _

theorem grows_endWrite (result : Except Fault Unit) :
    Journal.Grows (fun event => event.isAside = false) bench.journal
      (bench.endWrite caller command result).1.journal := by
  cases result with
  | error fault => exact grows_failWrite caller command bench fault
  | ok done =>
      have taken : Journal.Grows (fun event => event.isAside = false) bench.journal
          (bench.transfer caller command).journal := .one (by rfl) _
      exact taken.trans (grows_listen caller command _)

/-- An exchange records nothing else, however far it comes. -/
theorem grows_begin :
    Journal.Grows (fun event => event.isAside = false) bench.journal
      (bench.begin caller command).1.journal := by
  have started : Journal.Grows (fun event => event.isAside = false) bench.journal
      (bench.started caller command).journal := .one (by rfl) _
  rw [begin_eq]
  split
  · exact started.trans (grows_failWrite caller command _ _)
  · split
    · exact started.trans (grows_endWrite caller command _ _)
    · exact started

theorem grows_endTransmission (bytes : List UInt8) (result : Except Fault Unit) :
    Journal.Grows (fun event => event.isAside = false) bench.journal
      (bench.endTransmission caller bytes result).journal := by
  cases result with
  | ok done => exact .one (by rfl) _
  | error fault => exact .refl _ _

end

end Bench

namespace Routine

variable {α β : Type} {expected : List Deed → Option α → Prop} {past : List Deed}

/-- After the deeds of the past, the routine has done what is expected whenever it waits, and so it has when it
gives a value in the end. -/
def Performs (expected : List Deed → Option α → Prop) : Routine α → (past : List Deed) → Prop
  | .done value, past => expected past (some value)
  | .look next, past => ∀ station, (next station).Performs expected past
  | .act action next, past => next.Performs expected (past ++ [.act action])
  | .ask _ next, past => expected past none ∧ ∀ outcome, (next outcome).Performs expected past
  | .transmit _ _ next, past => expected past none ∧ ∀ outcome, (next outcome).Performs expected past
  | .pause _ next, past => expected past none ∧ next.Performs expected past
  | .rest next, past => expected past none ∧ next.Performs expected past
  | .claim next, past => expected past none ∧ next.Performs expected (past ++ [.claim])
  | .release next, past => next.Performs expected past

theorem Performs.andThen {first : Routine β} {between : List Deed → Option β → Prop} {follow : β → Routine α}
    (performs : first.Performs between past) (waits : ∀ past, between past none → expected past none)
    (goesOn : ∀ past value, between past (some value) → (follow value).Performs expected past) :
    (first.andThen follow).Performs expected past := by
  induction first generalizing past with
  | done value => exact goesOn past value performs
  | look next inductionHypothesis => exact fun station => inductionHypothesis station (performs station)
  | act action next inductionHypothesis => exact inductionHypothesis performs
  | ask command next inductionHypothesis =>
      exact ⟨waits past performs.1, fun outcome => inductionHypothesis outcome (performs.2 outcome)⟩
  | transmit bytes bound next inductionHypothesis =>
      exact ⟨waits past performs.1, fun outcome => inductionHypothesis outcome (performs.2 outcome)⟩
  | pause duration next inductionHypothesis => exact ⟨waits past performs.1, inductionHypothesis performs.2⟩
  | rest next inductionHypothesis => exact ⟨waits past performs.1, inductionHypothesis performs.2⟩
  | claim next inductionHypothesis => exact ⟨waits past performs.1, inductionHypothesis performs.2⟩
  | release next inductionHypothesis => exact inductionHypothesis performs

theorem Performs.mono {routine : Routine α} {narrower : List Deed → Option α → Prop}
    (performs : routine.Performs narrower past)
    (implies : ∀ deeds result, narrower deeds result → expected deeds result) :
    routine.Performs expected past := by
  rw [← andThen_done routine]
  exact performs.andThen (fun deeds => implies deeds none) fun deeds value => implies deeds (some value)

/-- A routine that only exchanges commands adds no deed. -/
theorem Only.performs {routine : Routine α} (only : routine.Only (fun _ => False) False) (past : List Deed) :
    routine.Performs (fun deeds _ => deeds = past) past := by
  induction routine with
  | done value => rfl
  | look next inductionHypothesis => exact fun station => inductionHypothesis station (only station)
  | act action next inductionHypothesis => exact only.1.elim
  | ask command next inductionHypothesis =>
      exact ⟨rfl, fun outcome => inductionHypothesis outcome (only outcome)⟩
  | transmit bytes bound next inductionHypothesis => exact only.elim
  | pause duration next inductionHypothesis => exact ⟨rfl, inductionHypothesis only⟩
  | rest next inductionHypothesis => exact ⟨rfl, inductionHypothesis only⟩
  | claim next inductionHypothesis => exact only.1.elim
  | release next inductionHypothesis => exact inductionHypothesis only

end Routine

/-- A caller that waits or has finished has done what is expected, and will have done so whenever it waits. -/
structure Caller.HasPerformed {α : Type} (expected : List Deed → Option α → Prop) (deeds : List Deed)
    (caller : Caller α) : Prop where
  now : expected deeds (caller.result?.map Prod.snd)
  later : ∃ rest, caller.At rest ∧ rest.Performs expected deeds

namespace Caller

open Journal (deeds)

variable {α σ : Type} {expected : List Deed → Option α → Prop} {number : Nat}

section

variable {command : String} {next : Except Fault String → Routine α}
  (runs : ∀ outcome (bench : Bench σ),
    (next outcome).Performs expected (deeds number bench.journal) →
      (run number (next outcome) bench).2.HasPerformed expected
        (deeds number (run number (next outcome) bench).1.journal))

include runs

theorem hasPerformed_follow {whole : String} (same : command = Text.stripLineEnd whole) {bench : Bench σ}
    {course : Bench σ × Stage}
    (grows : Journal.Grows (fun event => event.isAside = false) bench.journal course.1.journal)
    (performs : (Routine.ask whole next).Performs expected (deeds number bench.journal)) :
    (follow number command next course).2.HasPerformed expected
      (deeds number (follow number command next course).1.journal) := by
  rw [← Journal.deeds_of_exchange grows number] at performs
  obtain ⟨after, stage⟩ := course
  cases stage with
  | writing finish result => exact ⟨performs.1, _, ⟨whole, same, rfl⟩, performs⟩
  | awaiting deadline => exact ⟨performs.1, _, ⟨whole, same, rfl⟩, performs⟩
  | ended outcome => exact runs outcome after (performs.2 outcome)

end

/-- When a caller has run its routine as far as it can, it has done what is expected. -/
theorem hasPerformed_run (routine : Routine α) (bench : Bench σ)
    (performs : routine.Performs expected (deeds number bench.journal)) :
    (run number routine bench).2.HasPerformed expected
      (deeds number (run number routine bench).1.journal) := by
  induction routine generalizing bench with
  | done value => exact ⟨performs, _, rfl, performs⟩
  | look next inductionHypothesis => exact inductionHypothesis _ bench (performs _)
  | act action next inductionHypothesis =>
      refine inductionHypothesis _ ?_
      rw [Bench.deeds_perform]
      exact performs
  | ask command next inductionHypothesis =>
      by_cases isOpen : bench.isOpen = true
      · simp only [run, isOpen, Bool.not_true, Bool.false_eq_true, if_false]
        split
        · exact hasPerformed_follow inductionHypothesis rfl (Bench.grows_begin number _ _) performs
        · exact ⟨performs.1, _, ⟨command, rfl, rfl⟩, performs⟩
      · have closed : bench.isOpen = false := by simpa using isOpen
        simp only [run, closed]
        exact inductionHypothesis _ bench (performs.2 _)
  | transmit bytes bound next inductionHypothesis =>
      simp only [run, Bench.startWrite]
      split
      next after fault course =>
        obtain ⟨rfl, _⟩ := Prod.mk.inj course
        exact inductionHypothesis _ _ (performs.2 _)
      next after finish result course =>
        obtain ⟨rfl, _⟩ := Prod.mk.inj course
        split
        · refine inductionHypothesis result _ ?_
          rw [Journal.deeds_of_exchange (Bench.grows_endTransmission number _ bytes result)]
          exact performs.2 result
        · exact ⟨performs.1, _, ⟨bound, rfl⟩, performs⟩
  | pause duration next inductionHypothesis =>
      simp only [run]
      split
      · exact inductionHypothesis bench performs.2
      · exact ⟨performs.1, _, rfl, performs.2⟩
  | rest next inductionHypothesis => exact ⟨performs.1, _, rfl, performs.2⟩
  | claim next inductionHypothesis =>
      simp only [run]
      split
      · refine inductionHypothesis _ ?_
        exact (Journal.deeds_claimed bench.clock number bench.journal).symm ▸ performs.2
      · exact ⟨performs.1, _, rfl, performs⟩
  | release next inductionHypothesis =>
      refine inductionHypothesis _ ?_
      have silent : deeds number (⟨bench.clock, .released number⟩ :: bench.journal) = deeds number bench.journal :=
        Journal.collect_cons_none _ rfl
      exact silent.symm ▸ performs

/-- When a caller has gone on, it has done what is expected. -/
theorem HasPerformed.goOn {bench : Bench σ} {caller : Caller α}
    (performed : caller.HasPerformed expected (deeds number bench.journal)) :
    (caller.goOn number bench).2.HasPerformed expected
      (deeds number (caller.goOn number bench).1.journal) := by
  obtain ⟨now, rest, stands, performs⟩ := performed
  have runs {next : Except Fault String → Routine α} (outcome : Except Fault String) (bench : Bench σ) :=
    @hasPerformed_run α σ expected number (next outcome) bench
  cases caller with
  | ready routine =>
      cases stands
      exact hasPerformed_run _ bench performs
  | asleep wake routine =>
      cases stands
      exact hasPerformed_run _ bench performs
  | queued command next =>
      obtain ⟨whole, same, rfl⟩ := stands
      exact hasPerformed_follow runs same (Bench.grows_begin number command bench) performs
  | writing command finish result next =>
      obtain ⟨whole, same, rfl⟩ := stands
      exact hasPerformed_follow runs same (Bench.grows_endWrite number command bench result) performs
  | awaiting command deadline next =>
      obtain ⟨whole, same, rfl⟩ := stands
      exact hasPerformed_follow runs same (Bench.grows_takeReply number command bench) performs
  | transmitting bytes finish result next =>
      obtain ⟨bound, rfl⟩ := stands
      refine hasPerformed_run (next result) _ ?_
      rw [Journal.deeds_of_exchange (Bench.grows_endTransmission number bench bytes result)]
      exact performs.2 result
  | claiming routine =>
      cases stands
      refine hasPerformed_run routine _ ?_
      exact (Journal.deeds_claimed bench.clock number bench.journal).symm ▸ performs.2
  | finished time value => exact ⟨now, rest, stands, performs⟩

end Caller

theorem Turn.grows {α σ : Type} {number : Nat} {first last : Bench σ × Caller α} (turn : Turn number first last) :
    Journal.Grows (fun event => event.caller? = none ∨ event.caller? = some number) first.1.journal
      last.1.journal := by
  induction turn with
  | single advance => exact advance.grows
  | tail earlier advance inductionHypothesis => exact inductionHypothesis.trans advance.grows

/-- What a caller does in its turn is not the doing of another. -/
theorem Turn.grows_foreign {α σ : Type} {number other : Nat} {first last : Bench σ × Caller α}
    (turn : Turn number first last) (different : other ≠ number) :
    Journal.Grows (fun event => event.caller? ≠ some other) first.1.journal last.1.journal := by
  refine turn.grows.mono ?_
  rintro event (none | own)
  · simp [none]
  · simp [own, Ne.symm different]

namespace Traffic

open Journal (deeds)

variable {α σ : Type} {expected : Nat → List Deed → Option α → Prop}

/-- Every caller has done what is expected of it. -/
def HavePerformed (expected : Nat → List Deed → Option α → Prop) (traffic : Traffic α σ) : Prop :=
  ∀ (index : Nat) (caller : Caller α), traffic.callers[index]? = some caller →
    caller.HasPerformed (expected index) (deeds index traffic.journal)

namespace HavePerformed

variable {before after : Traffic α σ}

/-- What is nobody's doing is no deed. -/
theorem onBench (performed : before.HavePerformed expected) {bench : Bench σ}
    (grows : Journal.Grows (fun event => event.caller? = none) before.journal bench.journal) :
    HavePerformed expected ⟨bench, before.callers⟩ := by
  intro index caller here
  have same : deeds index bench.journal = deeds index before.journal :=
    Journal.deeds_of_foreign (grows.mono fun event none => by simp [none])
  change caller.HasPerformed _ (deeds index bench.journal)
  rw [same]
  exact performed index caller here

theorem turn (performed : before.HavePerformed expected) {number : Nat} (possible : before.canTurn number = true) :
    (before.turn number).HavePerformed expected := by
  unfold canTurn at possible
  unfold Traffic.turn
  split at possible
  next caller here =>
    refine forall_set (performed number caller here).goOn fun index other differ there => ?_
    have foreign : deeds index (caller.goOn number before.bench).1.journal = deeds index before.journal :=
      Journal.deeds_of_foreign ((Turn.of_goOn possible).grows_foreign differ)
    change other.HasPerformed _ (deeds index (caller.goOn number before.bench).1.journal)
    rw [foreign]
    exact performed index other there
  next => contradiction

theorem step (performed : before.HavePerformed expected) (step : before.Step after) :
    after.HavePerformed expected := by
  obtain ⟨move, possible⟩ := step
  cases move with
  | turn number => exact performed.turn possible
  | deliver index => exact performed.onBench (Bench.grows_deliver _ _)
  | tick => exact performed.onBench (.one (by rfl) _)
  | elapse => exact performed.onBench (.refl _ _)

end HavePerformed

/-- If every routine performs as expected, every caller has done what is expected of it after every run. -/
theorem Reaches.havePerformed {first : Bench σ} (fresh : first.IsFresh) {routines : List (Routine α)}
    (perform : ∀ (index : Nat) (routine : Routine α), routines[index]? = some routine →
      expected index [] none ∧ routine.Performs (expected index) [])
    {last : Traffic α σ} (reached : (Traffic.start first routines).Reaches last) :
    last.HavePerformed expected := by
  induction reached with
  | start =>
      intro index caller here
      obtain ⟨routine, found, rfl⟩ := ready_of_start here
      obtain ⟨waits, performs⟩ := perform index routine found
      have empty : (Traffic.start first routines).journal = [] := fresh.journal
      rw [empty]
      exact ⟨waits, routine, rfl, performs⟩
  | next _ step inductionHypothesis => exact inductionHypothesis.step step

end Traffic

end DelayGenerator
