/-
This file shows when a commit that reports success can be trusted. Acknowledgements carry no name, so an
acknowledgement that comes in late or in the middle of an answer may be credited to another directive.
-/

import DelayGenerator.Proofs.Bench.Limit
import DelayGenerator.Proofs.Bench.Punctual
import DelayGenerator.Proofs.Bench.Service
import DelayGenerator.Proofs.Operation.Acknowledge
import DelayGenerator.Proofs.Operation.Miscredit
import DelayGenerator.Proofs.Operation.Silence
import DelayGenerator.Proofs.Pulse.Directive

namespace DelayGenerator

namespace Journal

/-- The far end has taken a command and answered it with the acknowledgement in a line of its own. -/
def Acknowledges (limit : Nat) (command : String) (journal : List Entry) : Prop :=
  ∃ write ∈ collect Event.written? journal,
    write.2.1 = command ∧ acknowledgement ∈ Delivery.framed limit write.2.2

/-- Every reply is a line of the answer to the command of its own exchange. -/
def RepliesAreOwn (limit : Nat) (journal : List Entry) : Prop :=
  ∀ later past time caller command line,
    journal = later ++ ⟨time, .ended caller command (.ok line)⟩ :: past →
    ∃ mark sent answer,
      phase past = .written caller command mark sent answer ∧ line.text ∈ Delivery.framed limit answer

theorem repliesAreOwn {limit : Nat} {journal : List Entry}
    (answered : Every (IsAnswered limit) journal) : RepliesAreOwn limit journal := by
  intro later past time caller command line split
  rw [split] at answered
  obtain ⟨mark, sent, answer, written, right⟩ := (Every.middle answered).1 caller command _ rfl
  rcases right with ⟨own, same, found⟩ | ⟨timedOut, _⟩
  · cases same
    exact ⟨mark, sent, answer, written, found⟩
  · contradiction

/-- A caller that has been told a line of the answer to its own command has been answered with it. -/
theorem exists_written_of_outcome {start : Link} {limit number : Nat} {command text : String}
    {journal : List Entry} (orderly : IsOrderly start journal)
    (own : RepliesAreOwn limit journal) (told : (command, .ok text) ∈ outcomes number journal) :
    ∃ write ∈ collect Event.written? journal,
      write.2.1 = command ∧ text ∈ Delivery.framed limit write.2.2 := by
  obtain ⟨later, past, time, line, rfl, rfl⟩ := exists_ended_of_outcome told
  obtain ⟨mark, sent, answer, written, found⟩ := own later past time number command line rfl
  have orderlyPast := (Every.middle orderly).2
  obtain ⟨waiting, writing, before, ⟨⟨began, rfl⟩, _⟩, _⟩ := opens_of_written orderlyPast written
  refine ⟨(number, command, answer), mem_collect.mpr ⟨⟨sent, .wrote number command answer⟩, ?_, rfl⟩,
    rfl, found⟩
  simp

end Journal

namespace Bench

variable {σ : Type}

/-- Whenever a commit of a protocol reports success, the far end itself has acknowledged every
directive, and no reply has been taken for that to another command. -/
def CommitsTruly (attempts : Nat) (protocol : Protocol) (bench : Bench σ) : Prop :=
  ∀ (last : Traffic CommitReport σ) (time : Nat) (report : CommitReport),
    (Traffic.start bench [Operation.commit attempts protocol]).Reaches last →
    last.callers = [.finished time report] → report.isSuccess = true →
    (∀ directive ∈ Directive.ofProtocol protocol,
      Journal.Acknowledges bench.station.link.framer.limit directive.text last.journal) ∧
    Journal.RepliesAreOwn bench.station.link.framer.limit last.journal

/-- A commit is to be trusted if all its exchanges end with answers to their own commands. -/
theorem commitsTruly_of_answered {bench : Bench σ} (fresh : bench.IsFresh) {attempts : Nat}
    {protocol : Protocol}
    (answered : ∀ last : Traffic CommitReport σ,
      (Traffic.start bench [Operation.commit attempts protocol]).Reaches last →
      last.callers.length = 1 →
      Operation.IsAcknowledged True attempts (Directive.ofProtocol protocol)
        (Journal.outcomes 0 last.journal) →
      Journal.Every (Journal.IsAnswered bench.station.link.framer.limit) last.journal) :
    bench.CommitsTruly attempts protocol := by
  intro last time report reached finished success
  have here : last.callers[0]? = some (.finished time report) := by rw [finished]; rfl
  obtain ⟨routine, rest, found, leads, rfl⟩ := reached.told fresh 0 _ here
  cases found
  have acknowledged := Operation.leads_commit leads success
  have own := Journal.repliesAreOwn (answered last reached (by rw [finished]; rfl) acknowledged)
  refine ⟨?_, own⟩
  intro directive member
  have told := acknowledged.mem_transcript member
  rw [Directive.stripLineEnd_text member] at told
  exact Journal.exists_written_of_outcome (reached.regular fresh).recorded.orderly own told

theorem only_of_mem_commit {attempts : Nat} {protocol : Protocol} :
    ∀ routine ∈ [Operation.commit attempts protocol], routine.Only (fun _ => False) True := by
  intro routine inside
  rw [List.mem_singleton.mp inside]
  exact Operation.only_commit attempts protocol

/-- A far end whose answers come in time and as a whole is not credited with more than it has said. -/
theorem commitsTruly_of_inTime {bench : Bench σ} (fresh : bench.IsFresh)
    (able : bench.AnswersWhole True bench.station.link.framer.limit)
    (quiet : bench.IsQuiet bench.station.link.framer.limit) (attempts : Nat) (protocol : Protocol) :
    bench.CommitsTruly attempts protocol := by
  apply commitsTruly_of_answered fresh
  intro last reached _ _
  exact (reached.punctual fresh able quiet only_of_mem_commit).1.bench.answered

/-- With single attempts no exchange of a successful commit has timed out, so that answers need not come in
time. -/
theorem commitsTruly_of_once {bench : Bench σ} (fresh : bench.IsFresh)
    (able : bench.AnswersWhole False bench.station.link.framer.limit)
    (quiet : bench.IsQuiet bench.station.link.framer.limit) {attempts : Nat} (once : attempts ≤ 1)
    (protocol : Protocol) : bench.CommitsTruly attempts protocol := by
  apply commitsTruly_of_answered fresh
  intro last reached single acknowledged
  have timely : ¬ last.HasTimedOut := by
    rintro ⟨index, command, inside, member⟩
    have first : index = 0 := by omega
    subst first
    have outcome := acknowledged.eq_of_mem once member
    contradiction
  exact (reached.punctual_of_not_hasTimedOut fresh able quiet only_of_mem_commit timely).bench.answered

/-- If no line may be as long as the acknowledgement, nothing is ever taken for one. -/
theorem commitsTruly_of_short {bench : Bench σ} {limit : Nat} (fresh : bench.IsFresh)
    (framer : bench.station.link.framer.IsBounded limit) (short : limit < acknowledgement.length)
    (attempts : Nat) (protocol : Protocol) : bench.CommitsTruly attempts protocol := by
  apply commitsTruly_of_answered fresh
  intro last reached _ acknowledged
  have told := acknowledged.mem_transcript (Directive.startTrigger_mem protocol)
  have line := Journal.mem_lines_of_outcome (reached.regular fresh).recorded.orderly told
  exact absurd ((reached.keepsLines (Framer.yields_isBounded limit) fresh framer).lines _ line) (Nat.not_le_of_lt short)

end Bench

/-- The instrument is connected over a port that takes every command at once, and nothing has happened
yet. Exchanges wait for their replies. -/
structure Station.IsConnected (station : Station) : Prop where
  journal : station.journal = []
  connected : station.connection.isOpen = true
  isOpen : station.port.isOpen = true
  succeeds : station.port.failsWrites = false
  stays : station.port.dropsOnWrite = false
  atOnce : station.port.writeTime = some 0
  steady : station.ticker.IsSteady
  framer : station.link.framer = .empty station.link.framer.limit
  waits : 0 < station.link.replyBound

namespace Bench

/-- A station faces a far end, and nothing is on its way. -/
def facing {σ : Type} (station : Station) (farEnd : FarEnd σ) (pace : Pace) : Bench σ :=
  ⟨station, farEnd, pace, [], [], []⟩

end Bench

namespace Station.IsConnected

variable {station : Station} {σ : Type}

theorem station_isOpen (connected : station.IsConnected) : station.isOpen = true := by
  rw [Station.isOpen, connected.connected, connected.isOpen]
  rfl

theorem isBounded (connected : station.IsConnected) :
    station.link.framer.IsBounded station.link.framer.limit := by
  have empty := Framer.isBounded_empty station.link.framer.limit
  rw [← connected.framer] at empty
  exact empty

theorem isFresh (connected : station.IsConnected) (farEnd : FarEnd σ) (pace : Pace) :
    (Bench.facing station farEnd pace).IsFresh := ⟨connected.journal, rfl⟩

theorem isQuiet (connected : station.IsConnected) (farEnd : FarEnd σ) (pace : Pace) :
    (Bench.facing station farEnd pace).IsQuiet station.link.framer.limit := ⟨rfl, connected.framer⟩

theorem isReady (connected : station.IsConnected) {farEnd : FarEnd σ} (pace : Pace)
    {answers : σ → String → List String}
    (responds : ∀ state command, (farEnd.respond state command).2 = answers state command) :
    (Bench.facing station farEnd pace).IsReady answers pace station.link.replyBound station.clock
      (.empty station.link.framer.limit) :=
  ⟨⟨⟨connected.isOpen, connected.succeeds, connected.stays, connected.atOnce, connected.steady, responds,
    rfl, rfl, rfl, rfl, connected.framer⟩, rfl⟩, connected.connected, rfl⟩

theorem answersWhole (connected : station.IsConnected) (farEnd : FarEnd σ) {pace : Pace} {inTime : Prop}
    (whole : pace.chunkSize = none) (timely : inTime → pace.latency < station.link.replyBound) :
    (Bench.facing station farEnd pace).AnswersWhole inTime station.link.framer.limit := by
  refine ⟨⟨connected.isOpen, connected.succeeds, connected.stays, 0, connected.atOnce,
    Nat.zero_le _⟩, timely, ?_⟩
  intro state command
  change Delivery.IsWhole _ pace.chunkSize _
  rw [whole]
  exact Delivery.isWhole_none _ _

/-- If no answer can come in before all attempts of a directive are over, no commit reports success. -/
theorem commitsTruly_of_slow (connected : station.IsConnected) {pace : Pace} {attempts : Nat}
    (slow : max attempts 1 * station.link.replyBound < pace.latency) (farEnd : FarEnd σ)
    (protocol : Protocol) : (Bench.facing station farEnd pace).CommitsTruly attempts protocol := by
  intro last time report reached finished success
  obtain ⟨bench, callers⟩ := last
  cases finished
  have ready := connected.isReady pace fun state command => (rfl : (farEnd.respond state command).2 = _)
  have failed := Operation.not_isSuccess_of_reaches connected.waits attempts protocol slow ready reached
  rw [failed] at success
  contradiction

/-- If an acknowledgement may come in after the first attempt of a directive, or in the middle of an answer,
some far end is credited with one that it has never given. -/
theorem not_commitsTruly (connected : station.IsConnected) {pace : Pace} {attempts : Nat}
    (fits : acknowledgement.length ≤ station.link.framer.limit)
    (come : pace.latency ≤ max attempts 1 * station.link.replyBound)
    (wrong : pace.chunkSize ≠ none ∨ station.link.replyBound ≤ pace.latency ∧ 2 ≤ attempts)
    (protocol : Protocol) :
    ∃ farEnd : FarEnd Unit, ¬ (Bench.facing station farEnd pace).CommitsTruly attempts protocol := by
  obtain ⟨first, spoken, list, speaks⟩ := Directive.exists_ofProtocol_eq protocol
  obtain ⟨rounds, enough, afterwards, early, again⟩ :=
    Operation.exists_rounds connected.waits come (by omega)
  have free (count : Nat) :
      (Bench.facing station (.sparing Directive.startTrigger.text count) pace).claimed.IsFree
        (fun _ => Operation.sparing Directive.startTrigger.text count) pace station.link.replyBound
        station.clock [] (.empty station.link.framer.limit) :=
    { connected.isReady pace fun _ _ => rfl with }
  have silence : Text.stripLineEnd Directive.startTrigger.text = Directive.startTrigger.text := by
    decide
  have tries : ∃ (count : Nat) (after : Bench Unit),
      Bench.Completes (Operation.tryAll attempts (Directive.ofProtocol protocol)) []
        (Bench.facing station (.sparing Directive.startTrigger.text count) pace).claimed after := by
    rw [list]
    cases size : pace.chunkSize with
    | none =>
        obtain ⟨late, twice⟩ := wrong.resolve_left (absurd size)
        obtain ⟨after, tries⟩ := Operation.completes_tryAll_late size Nat.one_pos connected.waits
          fits (again late (by omega)) enough afterwards early spoken speaks silence (free 1)
        exact ⟨1, after, tries⟩
    | some width =>
        obtain ⟨after, tries⟩ := Operation.completes_tryAll_chunked size connected.waits fits
          enough afterwards early (spoken ++ [Directive.startTrigger])
          (speaks first List.mem_cons_self) (Nat.lt_succ_self _) (free _)
        exact ⟨_, after, tries⟩
  obtain ⟨count, after, tries⟩ := tries
  refine ⟨.sparing Directive.startTrigger.text count, ?_⟩
  intro truly
  have reached := (Operation.completes_commit connected.station_isOpen rfl tries).reaches
  obtain ⟨write, member, own, found⟩ :=
    (truly _ _ _ reached rfl rfl).1 Directive.startTrigger (Directive.startTrigger_mem protocol)
  have serves := reached.serves (connected.isFresh _ pace)
  have answer := serves.answer_eq (Operation.sparing _ count) (fun _ _ => rfl) member
  rw [answer, own, Operation.sparing, if_pos rfl] at found
  contradiction

/-- Whatever the instrument answers, a commit that reports success can be trusted exactly if answers come
in as a whole, and either before an exchange gives up or for directives that are sent once. The remaining
cases are those in which no commit reports success. -/
theorem commitsTruly_iff (connected : station.IsConnected) (pace : Pace) (attempts : Nat)
    (protocol : Protocol) :
    (∀ (σ : Type) (farEnd : FarEnd σ),
        (Bench.facing station farEnd pace).CommitsTruly attempts protocol) ↔
      pace.chunkSize = none ∧ (pace.latency < station.link.replyBound ∨ attempts ≤ 1) ∨
      max attempts 1 * station.link.replyBound < pace.latency ∨
      station.link.framer.limit < acknowledgement.length := by
  constructor
  · intro truly
    refine Classical.byContradiction fun otherwise => ?_
    simp only [not_or, not_and, Nat.not_lt, Nat.not_le] at otherwise
    obtain ⟨wrong, come, fits⟩ := otherwise
    have cause : pace.chunkSize ≠ none ∨ station.link.replyBound ≤ pace.latency ∧ 2 ≤ attempts :=
      (Classical.em (pace.chunkSize = none)).elim (fun whole => Or.inr (wrong whole)) Or.inl
    obtain ⟨farEnd, untrue⟩ := connected.not_commitsTruly fits come cause protocol
    exact untrue (truly Unit farEnd)
  · rintro (⟨whole, inTime | once⟩ | slow | short) σ farEnd
    · exact Bench.commitsTruly_of_inTime (connected.isFresh farEnd pace)
        (connected.answersWhole farEnd whole fun _ => inTime) (connected.isQuiet farEnd pace) attempts
        protocol
    · exact Bench.commitsTruly_of_once (connected.isFresh farEnd pace)
        (connected.answersWhole farEnd whole False.elim) (connected.isQuiet farEnd pace) once protocol
    · exact connected.commitsTruly_of_slow slow farEnd protocol
    · exact Bench.commitsTruly_of_short (connected.isFresh farEnd pace) connected.isBounded short attempts
        protocol

/-- Under the default settings commits can be trusted if answers take 199 milliseconds, but not if they take
250. -/
theorem commitsTruly_defaults :
    let station : Station :=
      { Station.idle Settings.defaults { Port.ready with isOpen := true } with
        connection := ⟨true, "", Settings.defaults.serial.baudRate⟩ }
    let commitsTruly (latency : Nat) : Prop := ∀ (σ : Type) (farEnd : FarEnd σ),
      (Bench.facing station farEnd ⟨latency, none⟩).CommitsTruly Settings.defaults.attempts
        Snapshot.idle.protocol
    station.IsConnected ∧ commitsTruly 199 ∧ ¬ commitsTruly 250 := by
  intro station commitsTruly
  have connected : station.IsConnected :=
    ⟨rfl, rfl, rfl, rfl, rfl, rfl, Ticker.isSteady_start _ _, rfl, by decide⟩
  refine ⟨connected, ?_, ?_⟩
  · apply (connected.commitsTruly_iff ⟨199, none⟩ Settings.defaults.attempts Snapshot.idle.protocol).mpr
    decide
  · intro truly
    have condition := (connected.commitsTruly_iff ⟨250, none⟩ Settings.defaults.attempts
      Snapshot.idle.protocol).mp truly
    revert condition
    decide

end Station.IsConnected

end DelayGenerator
