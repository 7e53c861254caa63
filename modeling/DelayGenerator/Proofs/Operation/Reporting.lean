/-
This file shows that the report of a commit is exact: it names those directives, in their order, that no
attempt has brought an acknowledgement.
-/

import DelayGenerator.Proofs.Operation.Attempts
import DelayGenerator.Proofs.Operation.Commit
import DelayGenerator.Proofs.Operation.Fetching

namespace DelayGenerator

namespace Call.Answer

def report? : Answer → Option CommitReport
  | .report sent => some sent
  | _ => none

theorem eq_report {answer : Answer} {report : CommitReport} (given : answer.report? = some report) :
    answer = .report report := by
  cases answer <;> cases given
  rfl

end Call.Answer

namespace Operation

/-- A directive together with all that has become of its attempts. -/
structure Trial where
  directive : Directive
  sendings : List Sending

namespace Trial

/-- Whether one of the attempts has been acknowledged. -/
def isAcknowledged (trial : Trial) : Bool :=
  trial.sendings.any fun sending => sending.outcome.toOption == some acknowledgement

/-- Nothing could be sent, or an attempt has been told that nothing is connected. -/
def IsCut (trial : Trial) : Prop :=
  trial.sendings = [] ∨ .error .notConnected ∈ trial.sendings.map Sending.outcome

theorem isAcknowledged_iff {trial : Trial} :
    trial.isAcknowledged = true ↔ .ok acknowledgement ∈ trial.sendings.map Sending.outcome := by
  simp only [isAcknowledged, List.any_eq_true, beq_iff_eq, List.mem_map]
  refine exists_congr fun sending => and_congr_right fun _ => ?_
  cases sending.outcome with
  | ok reply => simp [Except.toOption]
  | error fault => simp [Except.toOption]

/-- The directives that have not been acknowledged. -/
def failures (trials : List Trial) : List Directive :=
  (trials.filter fun trial => !trial.isAcknowledged).map directive

theorem failures_cons (trial : Trial) (trials : List Trial) :
    failures (trial :: trials) =
      if trial.isAcknowledged then failures trials else trial.directive :: failures trials := by
  unfold failures
  rw [List.filter_cons]
  cases trial.isAcknowledged <;> rfl

theorem failures_eq_nil_iff {trials : List Trial} :
    failures trials = [] ↔ ∀ trial ∈ trials, trial.isAcknowledged = true := by
  simp [failures, List.filter_eq_nil_iff]

end Trial

/-- One directive has been tried after the other. A directive that has not been sent at all found the port closed,
which has stayed so, and after the loss of the connection none is sent any more. -/
structure AreTried (attempts : Nat) (isOpen? : Option Bool) (trials : List Trial) : Prop where
  tried : ∀ trial ∈ trials, trial.sendings ≠ [] →
    IsTried (Text.stripLineEnd trial.directive.text) acknowledgement (max attempts 1) isOpen? trial.sendings
      trial.isAcknowledged
  unsent : ∀ trial ∈ trials, trial.sendings = [] → isOpen? = some false
  cut : trials.Pairwise fun earlier later => earlier.IsCut → later.sendings = []

/-- Once the port is closed, it stays so, and nothing is sent. -/
def StaysClosed (isOpen? after? : Option Bool) (trials : List Trial) : Prop :=
  isOpen? = some false → after? = some false ∧ ∀ trial ∈ trials, trial.sendings = []

section

variable {attempts : Nat} {isOpen? after? : Option Bool} {trials : List Trial}

/-- Whether a directive is accepted depends on its own attempts alone. -/
theorem Meets.isAcknowledged {directive : Directive} {isOpen : Bool} {sendings : List Sending} {accepted : Bool}
    (meets : Meets (Text.stripLineEnd directive.text) acknowledgement attempts isOpen after? sendings accepted) :
    (Trial.mk directive sendings).isAcknowledged = accepted := by
  cases meets with
  | tried tried => exact Bool.eq_iff_iff.mpr (Trial.isAcknowledged_iff.trans tried.settles.mem_iff)
  | unsent => rfl

theorem AreTried.nil : AreTried attempts isOpen? [] where
  tried _ member := absurd member List.not_mem_nil
  unsent _ member := absurd member List.not_mem_nil
  cut := List.Pairwise.nil

theorem AreTried.single {directive : Directive} {isOpen : Bool} {sendings : List Sending} {accepted : Bool}
    (meets : Meets (Text.stripLineEnd directive.text) acknowledgement attempts isOpen isOpen? sendings accepted) :
    AreTried attempts isOpen? [⟨directive, sendings⟩] := by
  have same := meets.isAcknowledged
  cases meets with
  | unsent =>
      refine ⟨List.forall_mem_singleton.mpr fun sent => absurd rfl sent, ?_, List.pairwise_singleton _ _⟩
      exact fun _ _ _ => rfl
  | tried tried =>
      refine ⟨List.forall_mem_singleton.mpr fun _ => ?_, ?_, List.pairwise_singleton _ _⟩
      · rwa [same]
      · exact List.forall_mem_singleton.mpr fun none => absurd none (List.cons_ne_nil _ _)

/-- Some directives are tried before others. -/
theorem AreTried.append {others : List Trial} (first : AreTried attempts isOpen? trials)
    (second : AreTried attempts after? others) (closed : StaysClosed isOpen? after? others) :
    AreTried attempts after? (trials ++ others) := by
  constructor
  · intro trial member sent
    rcases List.mem_append.mp member with early | late
    · have tried := first.tried trial early sent
      exact ⟨tried.commands, tried.settles, fun told => (closed (tried.closed told)).1⟩
    · exact second.tried trial late sent
  · intro trial member none
    rcases List.mem_append.mp member with early | late
    · exact (closed (first.unsent trial early none)).1
    · exact second.unsent trial late none
  · refine List.pairwise_append.mpr ⟨first.cut, second.cut, fun earlier early later late cut => ?_⟩
    by_cases sent : earlier.sendings = []
    · exact (closed (first.unsent earlier early sent)).2 later late
    · have told := cut.resolve_left sent
      exact (closed ((first.tried earlier early sent).closed told)).2 later late

theorem StaysClosed.append {middle? : Option Bool} {others : List Trial} (first : StaysClosed isOpen? middle? trials)
    (second : StaysClosed middle? after? others) : StaysClosed isOpen? after? (trials ++ others) := by
  intro closed
  obtain ⟨stays, silent⟩ := first closed
  obtain ⟨still, none⟩ := second stays
  exact ⟨still, List.forall_mem_append.mpr ⟨silent, none⟩⟩

end

/-- Directives have been tried, and their sendings stand behind the earlier ones. -/
structure Adds (attempts : Nat) (isOpen? : Option Bool) (earlier : List Sending) (trials : List Trial)
    (after? : Option Bool) (sendings : List Sending) : Prop where
  sendings : sendings = earlier ++ trials.flatMap Trial.sendings
  tried : AreTried attempts after? trials
  closed : StaysClosed isOpen? after? trials

section

variable {attempts : Nat} {isOpen? middle? after? : Option Bool} {earlier middle sendings : List Sending}
  {trials others : List Trial}

theorem Adds.nil : Adds attempts isOpen? earlier [] isOpen? earlier where
  sendings := (List.append_nil _).symm
  tried := .nil
  closed none := ⟨none, fun _ member => absurd member List.not_mem_nil⟩

theorem Adds.trans (first : Adds attempts isOpen? earlier trials middle? middle)
    (second : Adds attempts middle? middle others after? sendings) :
    Adds attempts isOpen? earlier (trials ++ others) after? sendings where
  sendings := by rw [second.sendings, first.sendings, List.flatMap_append, List.append_assoc]
  tried := first.tried.append second.tried second.closed
  closed := first.closed.append second.closed

end

theorem ensures_acknowledge (attempts : Nat) (directive : Directive) (isOpen? : Option Bool)
    (earlier : List Sending) :
    (acknowledge attempts directive).Ensures
      (fun after? sendings accepted => ∃ trial : Trial, trial.directive = directive ∧
        accepted = trial.isAcknowledged ∧ Adds attempts isOpen? earlier [trial] after? sendings)
      isOpen? earlier := by
  refine (ensures_sendExpect directive.text acknowledgement attempts isOpen? earlier).mono ?_
  rintro after? sendings accepted ⟨isOpen, more, known, rfl, meets⟩
  refine ⟨⟨directive, more⟩, rfl, meets.isAcknowledged.symm, ⟨by simp, .single meets, ?_⟩⟩
  intro none
  cases known false none
  cases meets with
  | unsent => exact ⟨rfl, List.forall_mem_singleton.mpr rfl⟩

/-- The sendings of the trials of all directives stand behind the earlier ones, and those that have not been
acknowledged are given. -/
theorem ensures_tryAll (attempts : Nat) (directives : List Directive) (isOpen? : Option Bool)
    (earlier : List Sending) :
    (tryAll attempts directives).Ensures
      (fun after? sendings failed => ∃ trials : List Trial, trials.map Trial.directive = directives ∧
        failed = Trial.failures trials ∧ Adds attempts isOpen? earlier trials after? sendings)
      isOpen? earlier := by
  induction directives generalizing isOpen? earlier with
  | nil => exact ⟨[], rfl, rfl, .nil⟩
  | cons directive others inductionHypothesis =>
      refine (ensures_acknowledge attempts directive isOpen? earlier).andThen ?_
      rintro middle? middle accepted ⟨trial, rfl, rfl, first⟩
      refine (inductionHypothesis middle? middle).andThen ?_
      rintro after? sendings failed ⟨trials, rfl, rfl, second⟩
      exact ⟨trial :: trials, rfl, (Trial.failures_cons trial trials).symm, first.trans second⟩

/-- A commit that finds the station open tries all directives, and one that finds it closed does nothing. -/
inductive Commits (attempts : Nat) (protocol : Protocol) :
    (isOpen : Bool) → (after? : Option Bool) → List Sending → Call.Answer → Prop
  | sent {after? : Option Bool} {trials : List Trial}
      (directives : trials.map Trial.directive = Directive.ofProtocol protocol)
      (tried : AreTried attempts after? trials) :
      Commits attempts protocol true after? (trials.flatMap Trial.sendings)
        (.report ⟨false, (Directive.ofProtocol protocol).length, (Trial.failures trials).map Directive.text⟩)
  | skipped {after? : Option Bool} : Commits attempts protocol false after? [] (.report .withoutConnection)

theorem ensures_commit (attempts : Nat) (protocol : Protocol) (isOpen : Bool) (isOpen? : Option Bool) :
    (if isOpen then
        .claim ((sendProtocol attempts protocol).andThen fun report => .release (.done (.report report)))
      else .done (.report .withoutConnection) : Routine Call.Answer).Ensures
      (Commits attempts protocol isOpen) isOpen? [] := by
  cases isOpen with
  | false => exact .skipped
  | true =>
      have sends : (sendProtocol attempts protocol).Ensures (fun after? sendings report =>
          Commits attempts protocol true after? sendings (.report report)) none [] := by
        refine (ensures_tryAll attempts (Directive.ofProtocol protocol) none []).andThen ?_
        rintro after? sendings failed ⟨trials, directives, rfl, adds⟩
        rw [adds.sendings]
        exact .sent directives adds.tried
      exact sends.andThen fun after? sendings report commits => commits

end Operation

namespace CommitReport

/-- The message of a report tells whether a directive has failed. -/
theorem message_failed_iff (report : CommitReport) :
    "COMMIT FAILED".toList <+: report.message.toList ↔ report.skipped = false ∧ report.failed ≠ [] := by
  unfold message
  split
  next skipped => simp [skipped]
  next tried =>
    split
    next complete => simp [List.isEmpty_iff.mp complete]
    next failed =>
      have begins : "COMMIT FAILED".toList <+: "COMMIT FAILED; ".toList := ⟨"; ".toList, by simp⟩
      simp only [String.toList_append, List.append_assoc]
      refine ⟨fun _ => ⟨by simpa using tried, by simpa using failed⟩, fun _ => ?_⟩
      exact begins.trans (List.prefix_append _ _)

end CommitReport

open Operation

namespace Traffic

/-- A caller has tried directives, and the journal tells of their exchanges. The port is open at its end, or it is
not. -/
structure Tries {σ : Type} (last : Traffic Call.Answer σ) (number attempts : Nat) (isOpen : Bool)
    (trials : List Trial) : Prop where
  tried : ∀ trial ∈ trials, trial.sendings ≠ [] →
    IsTried trial.directive.text acknowledgement (max attempts 1) (some isOpen) trial.sendings trial.isAcknowledged
  /-- Only the loss of the connection keeps a directive from being sent, and then the later ones as well. -/
  unsent : ∀ trial ∈ trials, trial.sendings = [] → isOpen = false
  cut : trials.Pairwise fun earlier later => earlier.IsCut → later.sendings = []
  told : Journal.outcomes number last.journal = (trials.flatMap Trial.sendings).filterMap Sending.exchange?
  writes : Journal.writes number last.journal =
    ((trials.flatMap Trial.sendings).filterMap Sending.exchange?).filterMap Journal.reached?

/-- A commit has been sent, and its report says exactly what has become of the directives. The port is open at its
end, or it is not. -/
structure ReportsExactly {σ : Type} (last : Traffic Call.Answer σ) (number attempts : Nat) (protocol : Protocol)
    (isOpen : Bool) (trials : List Trial) (report : CommitReport) : Prop where
  directives : trials.map Trial.directive = Directive.ofProtocol protocol
  tried : ∀ trial ∈ trials, trial.sendings ≠ [] →
    IsTried trial.directive.text acknowledgement (max attempts 1) (some isOpen) trial.sendings trial.isAcknowledged
  /-- Only the loss of the connection keeps a directive from being sent, and then the later ones as well. -/
  unsent : ∀ trial ∈ trials, trial.sendings = [] → isOpen = false
  cut : trials.Pairwise fun earlier later => earlier.IsCut → later.sendings = []
  told : Journal.outcomes number last.journal = (trials.flatMap Trial.sendings).filterMap Sending.exchange?
  writes : Journal.writes number last.journal =
    ((trials.flatMap Trial.sendings).filterMap Sending.exchange?).filterMap Journal.reached?
  lists : report =
    ⟨false, (Directive.ofProtocol protocol).length, (Trial.failures trials).map Directive.text⟩
  success : report.isSuccess = true ↔ ∀ trial ∈ trials, trial.isAcknowledged = true
  failure : "COMMIT FAILED".toList <+: report.message.toList ↔ ∃ trial ∈ trials, trial.isAcknowledged = false

variable {σ : Type} {first : Bench σ} {calls : List (Nat × Call)} {last : Traffic Call.Answer σ}

/-- The journal tells of the directives that a finished call has tried. -/
theorem Reaches.tries (fresh : first.IsFresh) (reached : (launch first calls).Reaches last)
    {number time attempts : Nat} {value : Call.Answer} {isOpen : Bool} {after? : Option Bool}
    {trials : List Trial} (finished : last.callers[number]? = some (.finished time value))
    (whole : ∀ trial ∈ trials, Text.stripLineEnd trial.directive.text = trial.directive.text)
    (tried : AreTried attempts after? trials) (known : ∀ stated ∈ after?, isOpen = stated)
    (told : Journal.outcomes number last.journal =
      (trials.flatMap Trial.sendings).filterMap Sending.exchange?) :
    Tries last number attempts isOpen trials where
  tried trial member sent := by
    have tries := (tried.tried trial member sent).after known
    rwa [whole trial member] at tries
  unsent trial member none := known false (tried.unsent trial member none)
  cut := tried.cut
  told := told
  writes := by rw [reached.writes_eq fresh finished, told]

/-- Once its directives have been tried, a commit that has finished reports on them exactly. -/
theorem reportsExactly_of_tries {number attempts : Nat} {protocol : Protocol} {isOpen : Bool} {trials : List Trial}
    (directives : trials.map Trial.directive = Directive.ofProtocol protocol)
    (tries : Tries last number attempts isOpen trials) :
    ReportsExactly last number attempts protocol isOpen trials
      ⟨false, (Directive.ofProtocol protocol).length, (Trial.failures trials).map Directive.text⟩ where
  directives := directives
  tried := tries.tried
  unsent := tries.unsent
  cut := tries.cut
  told := tries.told
  writes := tries.writes
  lists := rfl
  success := by
    rw [← Trial.failures_eq_nil_iff]
    simp [CommitReport.isSuccess]
  failure := by
    rw [CommitReport.message_failed_iff]
    simp [Trial.failures_eq_nil_iff]

/-- A commit has come to its end, having found the station open or closed. -/
structure CommitsExactly (first : Bench σ) (calls : List (Nat × Call)) (last : Traffic Call.Answer σ)
    (number attempts : Nat) (protocol : Protocol) (time : Nat) (value : Call.Answer)
    (before ended : Traffic Call.Answer σ) : Prop where
  spans : (launch first calls).Spans last number (Call.commit attempts protocol).routine time value before ended
  whenOpen : before.bench.station.isOpen = true → ∃ trials report, value = .report report ∧
    ReportsExactly last number attempts protocol ended.bench.isOpen trials report
  whenClosed : before.bench.station.isOpen = false → value = .report .withoutConnection ∧
    Journal.outcomes number last.journal = []

/-- The report of a commit is exact. Whatever else is called for and happens to the line, the commit comes to its
end. If it has found the station open, it has tried one directive after the other, and reports those that have
not been acknowledged. -/
theorem Reaches.reportsExactly (fresh : first.IsFresh) (free : first.cycleLine = [])
    (steady : first.station.ticker.IsSteady) (reached : (launch first calls).Reaches last) :
    last.Ends ∧ ∀ {number delay attempts time : Nat} {protocol : Protocol} {value : Call.Answer},
      calls[number]? = some (delay, .commit attempts protocol) →
      last.callers[number]? = some (.finished time value) →
      ∃ before ended, CommitsExactly first calls last number attempts protocol time value before ended := by
  refine ⟨reached.ends fresh free steady fun routine => isCyclic_of_mem_later, ?_⟩
  intro number delay attempts time protocol value called finished
  have looks := Operation.commit_andThen attempts protocol fun report => .done (Call.Answer.report report)
  have later : (calls.map Call.later)[number]? = some (.pause delay (.look fun station =>
      if station.isOpen then
        .claim ((sendProtocol attempts protocol).andThen fun report => .release (.done (.report report)))
      else .done (.report .withoutConnection))) := by
    rw [List.getElem?_map, called, ← looks]
    rfl
  obtain ⟨before, ended, after?, sendings, spans, told, known, commits⟩ :=
    reached.spans fresh later (fun station => ensures_commit attempts protocol station.isOpen _) finished
  rw [← looks] at spans
  refine ⟨before, ended, spans, fun isOpen => ?_, fun closed => ?_⟩
  · rw [isOpen] at commits
    cases commits with
    | sent directives tried =>
        refine ⟨_, _, rfl, reportsExactly_of_tries directives (reached.tries fresh finished ?_ tried known told)⟩
        intro trial member
        exact Directive.stripLineEnd_text (directives ▸ List.mem_map_of_mem member)
  · rw [closed] at commits
    cases commits
    exact ⟨rfl, told⟩

/-- The instrument does not unlock its keypad, and acknowledges the other directives. -/
theorem Reaches.reportsExactly_keypad :
    let respond : Unit → String → Unit × List String := fun _ command =>
      ((), if command = Directive.unlockKeypad.text then ["locked"] else ["ok"])
    let station : Station :=
      { Station.idle { Settings.defaults with tickPeriod := 0 } { Port.ready with isOpen := true } with
        connection := ⟨true, "", Settings.defaults.serial.baudRate⟩ }
    let first := Bench.facing station ⟨(), respond⟩ ⟨5, none⟩
    let calls := [(0, Call.commit 2 Snapshot.idle.protocol)]
    let last := (launch first calls).play
      (.turn 0 :: (List.replicate 36 [Move.elapse, .deliver 0, .turn 0]).flatten)
    let report : CommitReport := ⟨false, 35, [":SYST:KLOCK OFF"]⟩
    last.Ends ∧ ∃ time, last.callers[0]? = some (.finished time (.report report)) ∧
      ∃ before ended,
        CommitsExactly first calls last 0 2 Snapshot.idle.protocol time (.report report) before ended := by
  intro respond station first calls last report
  have here := Reaches.reportsExactly (⟨rfl, rfl⟩ : first.IsFresh) rfl
    (Ticker.isSteady_start _ _) (reaches_play (launch first calls)
      (.turn 0 :: (List.replicate 36 [Move.elapse, .deliver 0, .turn 0]).flatten))
  have given : ((last.callers[0]?.bind Caller.result?).bind fun result => result.2.report?) = some report := by
    decide +kernel
  obtain ⟨⟨time, value⟩, result, reported⟩ := Option.bind_eq_some_iff.mp given
  obtain ⟨caller, standing, result⟩ := Option.bind_eq_some_iff.mp result
  have same : value = .report report := Call.Answer.eq_report reported
  rw [Caller.eq_finished_of_result? result, same] at standing
  exact ⟨here.1, time, standing, here.2 rfl standing⟩

end Traffic

end DelayGenerator
