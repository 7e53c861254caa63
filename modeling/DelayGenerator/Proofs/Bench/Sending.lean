/-
This file keeps account of what becomes of the commands that a caller sends. What its routine ensures of them
holds in every run, together with what is known of the port when the caller goes on at once.
-/

import DelayGenerator.Proofs.Bench.Alone
import DelayGenerator.Proofs.Bench.Transcript

namespace DelayGenerator

/-- What becomes of a command: the port is closed and refuses it, or an exchange ends with an outcome. -/
inductive Sending where
  | refused (command : String)
  | exchanged (command : String) (outcome : Except Fault String)

namespace Sending

def command : Sending → String
  | refused command => command
  | exchanged command _ => command

/-- What the caller is told. -/
def outcome : Sending → Except Fault String
  | refused _ => .error .notConnected
  | exchanged _ outcome => outcome

/-- What the journal records of it. -/
def exchange? : Sending → Option (String × Except Fault String)
  | refused _ => none
  | exchanged command outcome => some (command, outcome)

def isRefused : Sending → Bool
  | refused _ => true
  | exchanged _ _ => false

theorem outcome_of_isRefused {sending : Sending} (refused : sending.isRefused = true) :
    sending.outcome = .error .notConnected := by
  cases sending with
  | refused command => rfl
  | exchanged command outcome => contradiction

/-- The journal tells of every sending that is not refused. -/
theorem map_fst_exchange? {sendings : List Sending} (exchanged : ∀ sending ∈ sendings, sending.isRefused = false) :
    (sendings.filterMap exchange?).map Prod.fst = sendings.map command := by
  induction sendings with
  | nil => rfl
  | cons first others inductionHypothesis =>
      obtain ⟨here, later⟩ := List.forall_mem_cons.mp exchanged
      cases first with
      | refused command => contradiction
      | exchanged command outcome => exact congrArg (command :: ·) (inductionHypothesis later)

/-- What the journal tells of has become of a sending. -/
theorem exists_of_mem_exchange? {sendings : List Sending} {command : String} {outcome : Except Fault String}
    (told : (command, outcome) ∈ sendings.filterMap exchange?) :
    ∃ sending ∈ sendings, sending.command = command ∧ sending.outcome = outcome := by
  obtain ⟨sending, member, exchanged⟩ := List.mem_filterMap.mp told
  cases sending with
  | refused other => contradiction
  | exchanged other found =>
      cases exchanged
      exact ⟨_, member, rfl, rfl⟩

theorem filterMap_exchange?_of_refused {sendings : List Sending}
    (refused : ∀ sending ∈ sendings, sending.isRefused = true) : sendings.filterMap exchange? = [] := by
  refine List.filterMap_eq_nil_iff.mpr fun sending member => ?_
  cases sending with
  | refused command => rfl
  | exchanged command outcome => exact absurd (refused _ member) (by simp [isRefused])

end Sending

/-- What is known of the port right after a caller has been told an outcome. -/
def portAfter? : Except Fault String → Option Bool
  | .error .notConnected => some false
  | _ => none

/-- What is known of the port after an act. Only what is kept in the cache has nothing to do with the port. -/
def Act.portAfter? (isOpen? : Option Bool) : Act → Option Bool
  | store _ => isOpen?
  | _ => none

namespace Routine

variable {α β : Type} {holds : Option Bool → List Sending → α → Prop}

/-- Once a routine is done, something holds of what has become of its commands and of its value, whatever it
finds on its way. As long as it goes on at once, it may be known whether the port is open. -/
def Ensures (holds : Option Bool → List Sending → α → Prop) :
    Routine α → (isOpen? : Option Bool) → List Sending → Prop
  | .done value, isOpen?, sendings => holds isOpen? sendings value
  | .look next, isOpen?, sendings =>
    ∀ station : Station, (∀ isOpen ∈ isOpen?, station.port.isOpen = isOpen) →
      (next station).Ensures holds (some station.port.isOpen) sendings
  | .act action next, isOpen?, sendings => next.Ensures holds (action.portAfter? isOpen?) sendings
  | .ask command next, isOpen?, sendings =>
    (isOpen? ≠ some true →
        (next (.error .notConnected)).Ensures holds (some false)
          (sendings ++ [.refused (Text.stripLineEnd command)])) ∧
      (isOpen? ≠ some false → ∀ outcome, (next outcome).Ensures holds (portAfter? outcome)
        (sendings ++ [.exchanged (Text.stripLineEnd command) outcome]))
  | .transmit _ _ next, _, sendings => ∀ outcome, (next outcome).Ensures holds none sendings
  | .pause _ next, _, sendings => next.Ensures holds none sendings
  | .rest next, _, sendings => next.Ensures holds none sendings
  | .claim next, _, sendings => next.Ensures holds none sendings
  | .release next, isOpen?, sendings => next.Ensures holds isOpen? sendings

theorem Ensures.andThen {first : Routine β} {between : Option Bool → List Sending → β → Prop}
    {follow : β → Routine α} {isOpen? : Option Bool} {sendings : List Sending}
    (ensures : first.Ensures between isOpen? sendings)
    (goesOn : ∀ isOpen? sendings value, between isOpen? sendings value →
      (follow value).Ensures holds isOpen? sendings) :
    (first.andThen follow).Ensures holds isOpen? sendings := by
  induction first generalizing isOpen? sendings with
  | done value => exact goesOn isOpen? sendings value ensures
  | look next inductionHypothesis =>
      exact fun station known => inductionHypothesis station (ensures station known)
  | act action next inductionHypothesis => exact inductionHypothesis ensures
  | ask command next inductionHypothesis =>
      exact ⟨fun possible => inductionHypothesis _ (ensures.1 possible),
        fun possible outcome => inductionHypothesis outcome (ensures.2 possible outcome)⟩
  | transmit bytes bound next inductionHypothesis =>
      exact fun outcome => inductionHypothesis outcome (ensures outcome)
  | pause duration next inductionHypothesis => exact inductionHypothesis ensures
  | rest next inductionHypothesis => exact inductionHypothesis ensures
  | claim next inductionHypothesis => exact inductionHypothesis ensures
  | release next inductionHypothesis => exact inductionHypothesis ensures

theorem Ensures.mono {routine : Routine α} {narrower : Option Bool → List Sending → α → Prop}
    {isOpen? : Option Bool} {sendings : List Sending} (ensures : routine.Ensures narrower isOpen? sendings)
    (implies : ∀ isOpen? sendings value, narrower isOpen? sendings value → holds isOpen? sendings value) :
    routine.Ensures holds isOpen? sendings := by
  rw [← andThen_done routine]
  exact ensures.andThen implies

end Routine

/-- Commands have been sent one after another, each of them whatever becomes of the others. The first one is exchanged
if the port has been open. Once a caller is told that nothing is connected the port is closed and stays so, and the
later commands are refused. -/
structure AreSent (commands : List String) (isOpen? after? : Option Bool) (sendings : List Sending) : Prop where
  inOrder : sendings.map Sending.command = commands.map Text.stripLineEnd
  begins : isOpen? = some true → ∀ sending ∈ sendings.head?, sending.isRefused = false
  closed : ∀ sending ∈ sendings, sending.outcome = .error .notConnected → after? = some false
  cut : sendings.Pairwise fun earlier later =>
    earlier.outcome = .error .notConnected → later.isRefused = true
  stays : isOpen? = some false → after? = some false ∧ ∀ sending ∈ sendings, sending.isRefused = true

namespace AreSent

variable {command : String} {commands : List String} {isOpen? after? : Option Bool} {sendings : List Sending}

theorem nil (isOpen? : Option Bool) : AreSent [] isOpen? isOpen? [] where
  inOrder := rfl
  begins _ _ member := absurd member (by simp)
  closed _ member := absurd member List.not_mem_nil
  cut := List.Pairwise.nil
  stays closed := ⟨closed, fun _ member => absurd member List.not_mem_nil⟩

/-- A closed port refuses a command and all others. -/
theorem refused (others : AreSent commands (some false) after? sendings) (possible : isOpen? ≠ some true) :
    AreSent (command :: commands) isOpen? after? (.refused (Text.stripLineEnd command) :: sendings) := by
  obtain ⟨closed, silent⟩ := others.stays rfl
  refine ⟨?_, fun isOpen => absurd isOpen possible, fun _ _ _ => closed, ?_, fun _ => ⟨closed, ?_⟩⟩
  · rw [List.map_cons, others.inOrder, List.map_cons]
    rfl
  · exact List.pairwise_cons.mpr ⟨fun later member _ => silent later member, others.cut⟩
  · exact List.forall_mem_cons.mpr ⟨rfl, silent⟩

theorem exchanged {outcome : Except Fault String} (others : AreSent commands (portAfter? outcome) after? sendings)
    (possible : isOpen? ≠ some false) :
    AreSent (command :: commands) isOpen? after? (.exchanged (Text.stripLineEnd command) outcome :: sendings) := by
  have lost (told : outcome = .error .notConnected) := others.stays (by rw [told]; rfl)
  refine ⟨?_, ?_, ?_, ?_, fun closed => absurd closed possible⟩
  · rw [List.map_cons, others.inOrder, List.map_cons]
    rfl
  · rintro _ sending ⟨⟩
    rfl
  · exact List.forall_mem_cons.mpr ⟨fun told => (lost told).1, others.closed⟩
  · exact List.pairwise_cons.mpr ⟨fun later member told => (lost told).2 later member, others.cut⟩

/-- What is known of the port holds of the port. -/
theorem after (sent : AreSent commands isOpen? after? sendings) {isOpen : Bool}
    (known : ∀ stated ∈ after?, isOpen = stated) : AreSent commands isOpen? (some isOpen) sendings where
  inOrder := sent.inOrder
  begins := sent.begins
  closed sending member told := congrArg some (known false (sent.closed sending member told))
  cut := sent.cut
  stays closed := ⟨congrArg some (known false (sent.stays closed).1), (sent.stays closed).2⟩

/-- As long as the port is open in the end, every command has been exchanged. -/
theorem isRefused_eq (sent : AreSent commands isOpen? (some true) sendings) :
    ∀ sending ∈ sendings, sending.isRefused = false := by
  intro sending member
  refine Bool.eq_false_iff.mpr fun refused => ?_
  exact absurd (sent.closed sending member (Sending.outcome_of_isRefused refused)) (by simp)

end AreSent

/-- Behind the earlier sendings stand those of some commands, together with what has come of them. -/
def SendsNext {α : Type} (commands : List String) (isOpen? : Option Bool) (earlier : List Sending)
    (holds : List Sending → α → Prop) (after? : Option Bool) (sendings : List Sending) (value : α) : Prop :=
  ∃ more, sendings = earlier ++ more ∧ AreSent commands isOpen? after? more ∧ holds more value

/-- A command is sent before the others, whatever becomes of it. -/
theorem Routine.ensures_ask {α : Type} {command : String} {commands : List String} {isOpen? : Option Bool}
    {earlier : List Sending} {holds : List Sending → α → Prop} {next : Except Fault String → Routine α}
    (goesOn : ∀ sending : Sending, (next sending.outcome).Ensures
      (SendsNext commands (portAfter? sending.outcome) (earlier ++ [sending]) fun more => holds (sending :: more))
      (portAfter? sending.outcome) (earlier ++ [sending])) :
    (Routine.ask command next).Ensures (SendsNext (command :: commands) isOpen? earlier holds) isOpen? earlier := by
  refine ⟨fun possible => ?_, fun possible outcome => ?_⟩
  · refine (goesOn (.refused (Text.stripLineEnd command))).mono ?_
    rintro after? sendings value ⟨more, rfl, sent, given⟩
    exact ⟨_ :: more, List.append_assoc _ _ _, sent.refused possible, given⟩
  · refine (goesOn (.exchanged (Text.stripLineEnd command) outcome)).mono ?_
    rintro after? sendings value ⟨more, rfl, sent, given⟩
    exact ⟨_ :: more, List.append_assoc _ _ _, sent.exchanged possible, given⟩

theorem Port.write_failed {port : Port} {now bound : Nat}
    (course : port.write now bound = .failed .notConnected) : port.touched.isOpen = false := by
  unfold write at course
  split at course
  · simp at course
  · split at course
    next closed => simpa using closed
    next =>
      split at course
      · split at course <;> simp at course
      · simp at course

theorem Port.write_ends {port : Port} {now bound finish : Nat} {result : Except Fault Unit}
    (course : port.write now bound = .ends finish result) : result ≠ .error .notConnected := by
  unfold write at course
  split at course
  · simp at course
  · split at course
    · simp at course
    · split at course
      · split at course <;> cases course <;> simp
      · cases course
        simp

open Journal (outcomes)

namespace Bench

variable {σ : Type} {number : Nat} {command : String}

/-- How the journal tells of an exchange as far as it has come. A caller that hears that nothing is connected
finds the port closed. -/
def Conveys (number : Nat) (command : String) (bench : Bench σ) : Bench σ × Stage → Prop
  | (after, .ended outcome) =>
    outcomes number after.journal = outcomes number bench.journal ++ [(command, outcome)] ∧
      (outcome = .error .notConnected → after.isOpen = false)
  | (after, .writing _ result) =>
    outcomes number after.journal = outcomes number bench.journal ∧ result ≠ .error .notConnected
  | (after, .awaiting _) => outcomes number after.journal = outcomes number bench.journal

theorem Conveys.of_outcomes {bench earlier : Bench σ} {course : Bench σ × Stage}
    (conveys : bench.Conveys number command course)
    (same : outcomes number bench.journal = outcomes number earlier.journal) :
    earlier.Conveys number command course := by
  obtain ⟨after, stage⟩ := course
  cases stage <;> simpa only [Conveys, same] using conveys

theorem conveys_takeReply (number : Nat) (command : String) (bench : Bench σ) :
    bench.Conveys number command (bench.takeReply number command) := by
  unfold takeReply
  split
  · exact ⟨Journal.collect_cons_some _ (Event.outcome?_own _ _ _), by simp [Except.map]⟩
  · split
    · exact ⟨Journal.collect_cons_some _ (Event.outcome?_own _ _ _), by simp [Except.map]⟩
    · exact ⟨Journal.collect_cons_some _ (Event.outcome?_own _ _ _), by simp [Except.map]⟩

theorem conveys_listen (number : Nat) (command : String) (bench : Bench σ) :
    bench.Conveys number command (bench.listen number command) := by
  simp only [listen]
  split
  · exact conveys_takeReply number command bench
  · rfl

theorem conveys_failWrite {fault : Fault} {bench : Bench σ}
    (closed : fault = .notConnected → bench.isOpen = false) :
    bench.Conveys number command (bench.failWrite number command fault) := by
  rw [failWrite_eq]
  refine ⟨outcomes_writeFailed_own number command fault bench, ?_⟩
  cases fault with
  | notConnected => exact fun _ => closed rfl
  | _ => simp [writeFault]

theorem conveys_endWrite {result : Except Fault Unit} (passes : result ≠ .error .notConnected) (bench : Bench σ) :
    bench.Conveys number command (bench.endWrite number command result) := by
  cases result with
  | ok done => exact (conveys_listen number command _).of_outcomes (Journal.collect_cons_none _ rfl)
  | error fault => exact conveys_failWrite fun same => absurd (congrArg Except.error same) passes

theorem conveys_begin (number : Nat) (command : String) (bench : Bench σ) :
    bench.Conveys number command (bench.begin number command) := by
  have same := outcomes_started number number command bench
  rw [begin_eq]
  split
  next fault course =>
    refine Conveys.of_outcomes (conveys_failWrite ?_) same
    rintro rfl
    exact Port.write_failed course
  next finish result course =>
    have passes := Port.write_ends course
    split
    · exact (conveys_endWrite passes _).of_outcomes same
    · exact ⟨same, passes⟩

end Bench

namespace Caller

variable {α σ : Type} {holds : Option Bool → List Sending → α → Prop} {number : Nat} {sendings : List Sending}

/-- What a caller ensures that has stopped for now, after its sendings so far and with the port as it is. -/
def Ensures (holds : Option Bool → List Sending → α → Prop) (isOpen : Bool) (sendings : List Sending) :
    Caller α → Prop
  | ready routine => routine.Ensures holds none sendings
  | asleep _ routine => routine.Ensures holds none sendings
  | queued command next => ∀ outcome, (next outcome).Ensures holds (portAfter? outcome)
      (sendings ++ [.exchanged command outcome])
  | writing command _ result next => result ≠ .error .notConnected ∧
      ∀ outcome, (next outcome).Ensures holds (portAfter? outcome) (sendings ++ [.exchanged command outcome])
  | awaiting command _ next => ∀ outcome, (next outcome).Ensures holds (portAfter? outcome)
      (sendings ++ [.exchanged command outcome])
  | transmitting _ _ _ next => ∀ outcome, (next outcome).Ensures holds none sendings
  | claiming routine => routine.Ensures holds none sendings
  | finished _ value => ∃ isOpen?, (∀ known ∈ isOpen?, isOpen = known) ∧ holds isOpen? sendings value

/-- A caller has gone on and sent some commands, of which the journal tells. -/
def HasSent (holds : Option Bool → List Sending → α → Prop) (number : Nat) (bench : Bench σ)
    (sendings : List Sending) (result : Bench σ × Caller α) : Prop :=
  ∃ more, outcomes number result.1.journal =
      outcomes number bench.journal ++ more.filterMap Sending.exchange? ∧
    result.2.Ensures holds result.1.isOpen (sendings ++ more)

theorem HasSent.of_outcomes {bench earlier : Bench σ} {result : Bench σ × Caller α}
    (sent : HasSent holds number bench sendings result)
    (same : outcomes number bench.journal = outcomes number earlier.journal) :
    HasSent holds number earlier sendings result := by
  rwa [HasSent, ← same]

/-- A caller that stops has sent nothing more. -/
theorem HasSent.stop {bench after : Bench σ} {caller : Caller α}
    (same : outcomes number after.journal = outcomes number bench.journal)
    (ensures : caller.Ensures holds after.isOpen sendings) :
    HasSent holds number bench sendings (after, caller) :=
  ⟨[], by simpa using same, by simpa using ensures⟩

/-- One sending comes before the others. -/
theorem HasSent.after {bench after : Bench σ} {sending : Sending} {result : Bench σ × Caller α}
    (told : outcomes number after.journal = outcomes number bench.journal ++ sending.exchange?.toList)
    (sent : HasSent holds number after (sendings ++ [sending]) result) :
    HasSent holds number bench sendings result := by
  obtain ⟨more, recorded, ensures⟩ := sent
  refine ⟨sending :: more, ?_, ?_⟩
  · rw [recorded, told, List.append_assoc, List.filterMap_cons]
    cases sending <;> rfl
  · rwa [List.append_assoc] at ensures

section

variable {command : String} {next : Except Fault String → Routine α}
  (runs : ∀ outcome (bench : Bench σ) (isOpen? : Option Bool) (sendings : List Sending),
    (∀ isOpen ∈ isOpen?, bench.isOpen = isOpen) → (next outcome).Ensures holds isOpen? sendings →
      HasSent holds number bench sendings (run number (next outcome) bench))

include runs

/-- However far an exchange has come, the caller goes on with it or waits for its end. -/
theorem hasSent_follow {bench : Bench σ} {course : Bench σ × Stage}
    (conveys : bench.Conveys number command course)
    (ensures : ∀ outcome, (next outcome).Ensures holds (portAfter? outcome)
      (sendings ++ [.exchanged command outcome])) :
    HasSent holds number bench sendings (follow number command next course) := by
  obtain ⟨after, stage⟩ := course
  cases stage with
  | writing finish result => exact .stop conveys.1 ⟨conveys.2, ensures⟩
  | awaiting deadline => exact .stop conveys ensures
  | ended outcome =>
      obtain ⟨told, closed⟩ := conveys
      have known : ∀ isOpen ∈ portAfter? outcome, after.isOpen = isOpen := by
        intro isOpen given
        unfold portAfter? at given
        split at given
        · cases given
          exact closed rfl
        · contradiction
      exact .after told (runs outcome after _ _ known (ensures outcome))

end

/-- A caller that runs its routine as far as it can ensures what the routine does. -/
theorem hasSent_run {isOpen? : Option Bool} (routine : Routine α) (bench : Bench σ)
    (known : ∀ isOpen ∈ isOpen?, bench.isOpen = isOpen) (ensures : routine.Ensures holds isOpen? sendings) :
    HasSent holds number bench sendings (run number routine bench) := by
  have unknown (bench : Bench σ) : ∀ isOpen ∈ (none : Option Bool), bench.isOpen = isOpen := by simp
  induction routine generalizing bench isOpen? sendings with
  | done value => exact .stop rfl ⟨isOpen?, known, ensures⟩
  | look next inductionHypothesis =>
      refine inductionHypothesis _ bench ?_ (ensures bench.station known)
      rintro isOpen ⟨⟩
      rfl
  | act action next inductionHypothesis =>
      have kept : ∀ isOpen ∈ action.portAfter? isOpen?,
          (bench.onStation (Station.perform number action)).isOpen = isOpen := by
        cases action <;> first | exact known | exact unknown _
      refine HasSent.of_outcomes (inductionHypothesis _ kept ensures) ?_
      exact Bench.collect_perform (fun _ => rfl) (fun _ _ => rfl) number action bench
  | ask command next inductionHypothesis =>
      have runs (outcome : Except Fault String) (bench : Bench σ) (isOpen? : Option Bool)
          (sendings : List Sending) (known : ∀ isOpen ∈ isOpen?, bench.isOpen = isOpen)
          (ensures : (next outcome).Ensures holds isOpen? sendings) :=
        inductionHypothesis outcome bench known ensures
      by_cases isOpen : bench.isOpen = true
      · have possible : isOpen? ≠ some false := by
          rintro rfl
          exact absurd (known false rfl) (by simp [isOpen])
        simp only [run, isOpen, Bool.not_true, Bool.false_eq_true, if_false]
        split
        · exact (hasSent_follow runs (Bench.conveys_begin number _ _) (ensures.2 possible)).of_outcomes rfl
        · exact .stop rfl (ensures.2 possible)
      · have closed : bench.isOpen = false := by simpa using isOpen
        have possible : isOpen? ≠ some true := by
          rintro rfl
          exact isOpen (known true rfl)
        simp only [run, closed]
        refine HasSent.after (List.append_nil _).symm (runs _ bench (some false) _ ?_ (ensures.1 possible))
        rintro isOpen ⟨⟩
        exact closed
  | transmit bytes bound next inductionHypothesis =>
      simp only [run, Bench.startWrite]
      split
      next after fault course =>
        obtain ⟨rfl, _⟩ := Prod.mk.inj course
        exact (inductionHypothesis _ _ (unknown _) (ensures _)).of_outcomes rfl
      next after finish result course =>
        obtain ⟨rfl, _⟩ := Prod.mk.inj course
        split
        · refine HasSent.of_outcomes (inductionHypothesis _ _ (unknown _) (ensures result)) ?_
          exact Bench.outcomes_endTransmission number number bytes result _
        · exact .stop rfl ensures
  | pause duration next inductionHypothesis =>
      simp only [run]
      split
      · exact inductionHypothesis bench (unknown bench) ensures
      · exact .stop rfl ensures
  | rest next inductionHypothesis => exact .stop rfl ensures
  | claim next inductionHypothesis =>
      simp only [run]
      split
      · exact HasSent.of_outcomes (inductionHypothesis _ (unknown _) ensures) (Journal.collect_cons_none _ rfl)
      · exact .stop rfl ensures
  | release next inductionHypothesis =>
      have same : outcomes number (⟨bench.clock, .released number⟩ :: bench.journal) =
          outcomes number bench.journal := Journal.collect_cons_none _ rfl
      refine HasSent.of_outcomes (inductionHypothesis _ ?_ ensures) same
      exact known

/-- What a caller ensures, it still ensures when it has gone on. -/
theorem hasSent_goOn {bench : Bench σ} {isOpen : Bool} (caller : Caller α)
    (ensures : caller.Ensures holds isOpen sendings) (waits : caller.isFinished = false) :
    HasSent holds number bench sendings (caller.goOn number bench) := by
  have unknown (bench : Bench σ) : ∀ isOpen ∈ (none : Option Bool), bench.isOpen = isOpen := by simp
  have runs {next : Except Fault String → Routine α} (outcome : Except Fault String) (bench : Bench σ)
      (isOpen? : Option Bool) (sendings : List Sending) (known : ∀ isOpen ∈ isOpen?, bench.isOpen = isOpen)
      (ensures : (next outcome).Ensures holds isOpen? sendings) :=
    @hasSent_run α σ holds number sendings isOpen? (next outcome) bench known ensures
  cases caller with
  | ready routine => exact hasSent_run routine bench (unknown bench) ensures
  | asleep wake routine => exact hasSent_run routine bench (unknown bench) ensures
  | queued command next => exact hasSent_follow runs (Bench.conveys_begin number command bench) ensures
  | writing command finish result next =>
      exact hasSent_follow runs (Bench.conveys_endWrite ensures.1 bench) ensures.2
  | awaiting command deadline next =>
      exact hasSent_follow runs (Bench.conveys_takeReply number command bench) ensures
  | transmitting bytes finish result next =>
      refine HasSent.of_outcomes (hasSent_run (next result) _ (unknown _) (ensures result)) ?_
      exact Bench.outcomes_endTransmission number number bytes result bench
  | claiming routine =>
      exact HasSent.of_outcomes (hasSent_run routine _ (unknown _) ensures) (Journal.collect_cons_none _ rfl)
  | finished time value => contradiction

end Caller

end DelayGenerator
