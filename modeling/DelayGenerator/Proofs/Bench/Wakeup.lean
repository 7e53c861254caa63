/-
This file shows that no line is missed and no exchange is woken for nothing: how an exchange ends
depends on the lines that come in between its beginning and its deadline, and on nothing else but
resets of the link.
-/

import DelayGenerator.Proofs.Bench.Course
import DelayGenerator.Proofs.Bench.Schedule
import DelayGenerator.Proofs.Bench.Transcript

namespace DelayGenerator

/-- An exchange that has written its command and has ended, with what happens in its course. The latest
entries stand first. -/
structure Exchange where
  caller : Nat
  command : String
  mark : Nat
  began : Nat
  writing : List Entry
  sent : Nat
  answer : List String
  waiting : List Entry
  ended : Nat
  outcome : Except Fault QueuedLine

namespace Journal

/-- Nobody resets the link. -/
def HasNoReset (entries : List Entry) : Prop :=
  ∀ entry ∈ entries, ∀ caller, entry.event ≠ .did caller .resetLink

end Journal

namespace Exchange

/-- The entry with which the exchange begins. -/
def opening (exchange : Exchange) : Entry :=
  ⟨exchange.began, .began exchange.caller exchange.command exchange.mark⟩

/-- The entry that records its write. -/
def sending (exchange : Exchange) : Entry :=
  ⟨exchange.sent, .wrote exchange.caller exchange.command exchange.answer⟩

/-- The entry with which the exchange ends. -/
def closing (exchange : Exchange) : Entry :=
  ⟨exchange.ended, .ended exchange.caller exchange.command exchange.outcome⟩

/-- What happens between the beginning of the exchange and its end. -/
def course (exchange : Exchange) : List Entry :=
  exchange.waiting ++ exchange.sending :: exchange.writing

/-- The exchange is recorded in a journal, with entries after its end and before its beginning. -/
structure IsIn (exchange : Exchange) (journal later before : List Entry) : Prop where
  split : journal = later ++ exchange.closing :: (exchange.course ++ exchange.opening :: before)
  alone : ∀ entry ∈ exchange.course, entry.event.isBound = false

/-- The exchange has ended as the lines that came in demand. Without a reset it takes a line that is
completed before the deadline, at whatever moment; it times out only if there is none; and it is woken
for nothing only if a reset has taken away a line that came in before. -/
structure IsAttentive (exchange : Exchange) (deadline : Nat) (later : List Entry) : Prop where
  outcome : (∃ line, exchange.outcome = .ok line) ∨
    exchange.outcome = .error (.replyTimedOut exchange.command) ∨
    exchange.outcome = .error (.wokenWithoutLine exchange.command)
  notForNothing : Journal.HasNoReset exchange.course →
    exchange.outcome ≠ .error (.wokenWithoutLine exchange.command)
  answered : Journal.HasNoReset exchange.course →
    (∃ entry ∈ later ++ exchange.course, entry.event.lines ≠ [] ∧ entry.time < deadline) →
    ∃ line, exchange.outcome = .ok line
  timedOut : exchange.outcome = .error (.replyTimedOut exchange.command) →
    ∀ entry ∈ later ++ exchange.course, entry.event.lines ≠ [] → deadline ≤ entry.time
  robbed : exchange.outcome = .error (.wokenWithoutLine exchange.command) →
    ∃ after reset between received earlier caller,
      exchange.course = after ++ reset :: (between ++ received :: earlier) ∧
      reset.event = .did caller .resetLink ∧ Journal.HasNoReset between ∧
      received.event.lines ≠ []

end Exchange

namespace Journal

variable {start : Link} {past course before : List Entry} {caller mark : Nat} {command : String}

/-- Without lines nothing fills an empty queue. -/
theorem lines_onLink_eq_nil {event : Event} {link : Link} (silent : event.lines = [])
    (empty : link.queue.lines = []) : (event.onLink link).queue.lines = [] := by
  cases event with
  | received lines =>
      change lines = [] at silent
      subst silent
      exact empty
  | did caller act => cases act <;> first | rfl | exact empty
  | ended caller command outcome =>
      cases outcome with
      | ok line => rfl
      | error fault => cases fault <;> exact empty
  | began caller command mark => rfl
  | _ => exact empty

theorem lines_eq_nil_iff {entries : List Entry} :
    lines entries = [] ↔ ∀ entry ∈ entries, entry.event.lines = [] := by
  induction entries with
  | nil => simp [lines]
  | cons entry entries inductionHypothesis =>
      simp [lines, inductionHypothesis, and_comm]

/-- The queue stays empty until a line comes in. -/
theorem queue_eq_nil {later : List Entry} (silent : ∀ entry ∈ later, entry.event.lines = [])
    (empty : (link start past).queue.lines = []) :
    (link start (later ++ past)).queue.lines = [] := by
  induction later with
  | nil => exact empty
  | cons entry later inductionHypothesis =>
      apply lines_onLink_eq_nil (silent entry List.mem_cons_self)
      apply inductionHypothesis
      intro other member
      exact silent other (List.mem_cons_of_mem entry member)

/-- How an exchange ends depends on what the link is like then. -/
theorem Admits.outcome_cases {sent time : Nat} {answer : List String}
    {outcome : Except Fault QueuedLine}
    (admits : Admits start past ⟨time, .ended caller command outcome⟩)
    (written : phase past = .written caller command mark sent answer) :
    (∃ line, outcome = .ok line) ∨
      (outcome = .error (.replyTimedOut command) ∧ (link start past).isWoken = false ∧
        sent + start.replyBound ≤ time) ∨
      (outcome = .error (.wokenWithoutLine command) ∧ (link start past).isWoken = true ∧
        (link start past).queue.lines = []) := by
  cases admits with
  | failed time begun kind => rw [written] at begun; contradiction
  | replied time same first => exact Or.inl ⟨_, rfl⟩
  | wokenInVain time same empty woken =>
      exact Or.inr (Or.inr ⟨rfl, woken, ReplyQueue.first?_eq_none_iff.mp empty⟩)
  | timedOut time same empty asleep late =>
      rw [written] at same
      cases same
      exact Or.inr (Or.inl ⟨rfl, asleep, late⟩)
  | aside aside => contradiction

namespace Opens

/-- A line in the queue has come in during the exchange, and the link has not been reset since. -/
theorem received_of_queue (opens : Opens past caller command mark course before)
    (some : (link start past).queue.lines ≠ []) :
    ∃ between received earlier, course = between ++ received :: earlier ∧ HasNoReset between ∧
      received.event.lines ≠ [] := by
  obtain ⟨⟨time, rfl⟩, alone⟩ := opens
  induction course with
  | nil => exact absurd rfl some
  | cons entry course inductionHypothesis =>
      by_cases silent : entry.event.lines = []
      · -- A reset would have emptied the queue, so the line is older than this entry.
        have old : (link start (course ++ ⟨time, .began caller command mark⟩ :: before)).queue.lines ≠
            [] := fun empty => some (lines_onLink_eq_nil silent empty)
        obtain ⟨between, received, earlier, rfl, kept, lines⟩ := inductionHypothesis
          (fun other member => alone other (List.mem_cons_of_mem entry member)) old
        refine ⟨entry :: between, received, earlier, rfl, ?_, lines⟩
        intro other member
        rcases List.mem_cons.mp member with rfl | inside
        · intro caller reset
          apply some
          rw [List.cons_append, link, reset]
          rfl
        · exact kept other inside
      · refine ⟨[], entry, course, rfl, ?_, silent⟩
        intro other member
        contradiction

/-- When lines have come in and the queue is empty all the same, a reset has emptied it. -/
theorem reset_of_queue (opens : Opens past caller command mark course before)
    (empty : (link start past).queue.lines = []) (woken : lines course ≠ []) :
    ∃ after reset between received earlier caller,
      course = after ++ reset :: (between ++ received :: earlier) ∧
      reset.event = .did caller .resetLink ∧ HasNoReset between ∧ received.event.lines ≠ [] := by
  obtain ⟨⟨time, rfl⟩, alone⟩ := opens
  induction course with
  | nil => exact absurd rfl woken
  | cons entry course inductionHypothesis =>
      have rest : ∀ other ∈ course, other.event.isBound = false := fun other member =>
        alone other (List.mem_cons_of_mem entry member)
      have own := alone entry List.mem_cons_self
      by_cases old :
          (link start (course ++ ⟨time, .began caller command mark⟩ :: before)).queue.lines = []
      · have silent : entry.event.lines = [] := by
          apply Classical.byContradiction
          intro some
          apply Event.lines_onLink_ne_nil own ?_ (Or.inr some) empty
          intro caller reset
          rw [reset] at some
          exact some rfl
        have earlierLines : lines course ≠ [] := by
          rw [lines, silent, List.append_nil] at woken
          exact woken
        obtain ⟨after, reset, between, received, earlier, caller, rfl, facts⟩ :=
          inductionHypothesis earlierLines rest old
        exact ⟨entry :: after, reset, between, received, earlier, caller, rfl, facts⟩
      · have reset : ∃ caller, entry.event = .did caller .resetLink := by
          apply Classical.byContradiction
          intro none
          exact Event.lines_onLink_ne_nil own (not_exists.mp none) (Or.inl old) empty
        obtain ⟨caller, reset⟩ := reset
        obtain ⟨between, received, earlier, rfl, kept, lines⟩ :=
          received_of_queue ⟨⟨time, rfl⟩, rest⟩ old
        exact ⟨[], entry, between, received, earlier, caller, rfl, reset, kept, lines⟩

end Opens

end Journal

namespace Exchange

open Journal

variable {start : Link} {exchange : Exchange} {journal later before : List Entry}

/-- The exchange has begun, and its course is what has happened since. -/
theorem IsIn.opens (within : exchange.IsIn journal later before) :
    Opens (exchange.course ++ exchange.opening :: before) exchange.caller exchange.command
      exchange.mark exchange.course before :=
  ⟨⟨exchange.began, rfl⟩, within.alone⟩

/-- The journal is orderly up to the end of the exchange. -/
theorem IsIn.orderly (within : exchange.IsIn journal later before)
    (orderly : IsOrderly start journal) :
    IsOrderly start (exchange.closing :: (exchange.course ++ exchange.opening :: before)) := by
  rw [within.split] at orderly
  exact Every.middle orderly

/-- What follows in an orderly journal is not earlier than the end of the exchange. -/
theorem IsIn.not_earlier (within : exchange.IsIn journal later before)
    (orderly : IsOrderly start journal) :
    ∀ entry ∈ later, exchange.ended ≤ entry.time := by
  intro entry member
  obtain ⟨newer, older, rfl⟩ := List.append_of_mem member
  rw [within.split, List.append_assoc] at orderly
  obtain ⟨⟨_, ordered⟩, _⟩ := Every.middle orderly
  exact ordered exchange.closing (List.mem_append_right older List.mem_cons_self)

/-- Once its command is written, the exchange waits until it ends. -/
theorem IsIn.written (within : exchange.IsIn journal later before)
    (orderly : IsOrderly start journal) :
    phase (exchange.course ++ exchange.opening :: before) =
      .written exchange.caller exchange.command exchange.mark exchange.sent exchange.answer := by
  have whole := (within.orderly orderly).2
  have alone := within.alone
  unfold course at whole alone ⊢
  simp only [List.append_assoc, List.cons_append] at whole ⊢
  obtain ⟨⟨admits, _⟩, earlier⟩ := Every.middle whole
  have opens : Opens (exchange.writing ++ exchange.opening :: before) exchange.caller
      exchange.command exchange.mark exchange.writing before := by
    refine ⟨⟨exchange.began, rfl⟩, ?_⟩
    intro entry member
    exact alone entry (List.mem_append_right _ (List.mem_cons_of_mem _ member))
  -- Its own write is no write of someone else, so the command had not been written before.
  have begun : phase (exchange.writing ++ exchange.opening :: before) =
      .begun exchange.caller exchange.command exchange.mark := by
    rcases opens.phase_eq with begun | ⟨sent, answer, written⟩
    · exact begun
    · cases admits with
      | wrote time answer begun => rw [written] at begun; contradiction
      | passed time command answer foreign =>
          rw [written] at foreign
          exact absurd rfl foreign
      | aside aside => contradiction
  have written : phase (exchange.sending :: (exchange.writing ++ exchange.opening :: before)) =
      .written exchange.caller exchange.command exchange.mark exchange.sent exchange.answer := by
    rw [phase, begun]
    simp [Phase.after, sending]
  rcases written_or_ended whole written with goesOn | ⟨entry, member, outcome, ended⟩
  · exact goesOn
  · have unbound := alone entry (List.mem_append_left _ member)
    rw [ended] at unbound
    contradiction

/-- How an exchange has ended, by the lines that have come in since it began. -/
theorem IsIn.outcome_cases (within : exchange.IsIn journal later before) (orderly : IsOrderly start journal) :
    (∃ line, exchange.outcome = .ok line) ∨
      (exchange.outcome = .error (.replyTimedOut exchange.command) ∧ Journal.lines exchange.course = [] ∧
        exchange.sent + start.replyBound ≤ exchange.ended) ∨
      (exchange.outcome = .error (.wokenWithoutLine exchange.command) ∧ Journal.lines exchange.course ≠ [] ∧
        (link start (exchange.course ++ exchange.opening :: before)).queue.lines = []) := by
  obtain ⟨⟨admits, _⟩, _⟩ := within.orderly orderly
  have woken : (link start (exchange.course ++ exchange.opening :: before)).isWoken =
      !(lines exchange.course).isEmpty := within.opens.isWoken
  rcases admits.outcome_cases (within.written orderly) with answered | ⟨late, asleep, reached⟩ | ⟨robbed, awake, empty⟩
  · exact Or.inl answered
  · rw [woken] at asleep
    exact Or.inr (Or.inl ⟨late, by simpa using asleep, reached⟩)
  · rw [woken] at awake
    exact Or.inr (Or.inr ⟨robbed, by simpa using awake, empty⟩)

theorem IsIn.of_wokenWithoutLine (within : exchange.IsIn journal later before) (orderly : IsOrderly start journal)
    (robbed : exchange.outcome = .error (.wokenWithoutLine exchange.command)) :
    Journal.lines exchange.course ≠ [] ∧
      (link start (exchange.course ++ exchange.opening :: before)).queue.lines = [] := by
  rcases within.outcome_cases orderly with ⟨line, answered⟩ | ⟨late, _⟩ | ⟨_, facts⟩
  · rw [answered] at robbed
    contradiction
  · rw [late] at robbed
    cases robbed
  · exact facts

theorem IsIn.of_replyTimedOut (within : exchange.IsIn journal later before) (orderly : IsOrderly start journal)
    (late : exchange.outcome = .error (.replyTimedOut exchange.command)) :
    Journal.lines exchange.course = [] ∧ exchange.sent + start.replyBound ≤ exchange.ended := by
  rcases within.outcome_cases orderly with ⟨line, answered⟩ | ⟨_, facts⟩ | ⟨robbed, _⟩
  · rw [answered] at late
    contradiction
  · exact facts
  · rw [robbed] at late
    cases late

/-- After a timeout all lines come in later than the deadline. -/
theorem IsIn.le_time_of_replyTimedOut (within : exchange.IsIn journal later before)
    (orderly : IsOrderly start journal) (late : exchange.outcome = .error (.replyTimedOut exchange.command))
    {entry : Entry} (member : entry ∈ later ++ exchange.course) (lines : entry.event.lines ≠ []) :
    exchange.sent + start.replyBound ≤ entry.time := by
  obtain ⟨none, reached⟩ := within.of_replyTimedOut orderly late
  rcases List.mem_append.mp member with afterwards | inside
  · exact Nat.le_trans reached (within.not_earlier orderly entry afterwards)
  · exact absurd (lines_eq_nil_iff.mp none entry inside) lines

/-- Every exchange in an orderly journal has ended as the lines demand. -/
theorem IsIn.isAttentive (within : exchange.IsIn journal later before)
    (orderly : IsOrderly start journal) :
    exchange.IsAttentive (exchange.sent + start.replyBound) later := by
  have notForNothing (kept : HasNoReset exchange.course) :
      exchange.outcome ≠ .error (.wokenWithoutLine exchange.command) := by
    intro robbed
    obtain ⟨some, empty⟩ := within.of_wokenWithoutLine orderly robbed
    exact within.opens.lines_ne_nil kept some empty
  constructor
  · rcases within.outcome_cases orderly with answered | ⟨late, _⟩ | ⟨robbed, _⟩
    · exact Or.inl answered
    · exact Or.inr (Or.inl late)
    · exact Or.inr (Or.inr robbed)
  · exact notForNothing
  · rintro kept ⟨entry, member, lines, early⟩
    rcases within.outcome_cases orderly with answered | ⟨late, _⟩ | ⟨robbed, _⟩
    · exact answered
    · have reached := within.le_time_of_replyTimedOut orderly late member lines
      omega
    · exact absurd robbed (notForNothing kept)
  · exact fun late entry member lines => within.le_time_of_replyTimedOut orderly late member lines
  · intro robbed
    obtain ⟨some, empty⟩ := within.of_wokenWithoutLine orderly robbed
    exact within.opens.reset_of_queue empty some

/-- A reply leaves the queue empty until the next line comes in. -/
theorem IsIn.queue_eq_nil (within : exchange.IsIn journal later before)
    (answered : ∃ line, exchange.outcome = .ok line)
    (silent : ∀ entry ∈ later, entry.event.lines = []) :
    (link start journal).queue.lines = [] := by
  obtain ⟨line, answered⟩ := answered
  rw [within.split]
  apply Journal.queue_eq_nil silent
  rw [link, closing, answered]
  rfl

end Exchange

namespace Advance

variable {α σ : Type} {number : Nat} {bench after : Bench σ} {caller next : Caller α}

/-- The journal only grows. -/
theorem journal_suffix (advance : Advance number bench caller after next) :
    bench.journal <:+ after.journal := by
  cases advance with
  | act action follow =>
      cases action with
      | receive bytes => exact (List.suffix_cons _ _).trans (List.suffix_cons _ _)
      | _ => exact List.suffix_cons _ _
  | start first course => exact List.suffix_cons _ _
  | @failAtOnce command next fault first course =>
      have started : bench.journal <:+ (bench.started number command).journal := List.suffix_cons _ _
      cases fault <;> exact started.trans (List.suffix_cons _ _)
  | write due => exact List.suffix_cons _ _
  | @failLate command next finish fault due => cases fault <;> exact List.suffix_cons _ _
  | takeLine due first => exact List.suffix_cons _ _
  | wakeInVain empty woken => exact List.suffix_cons _ _
  | timeOut empty asleep due => exact List.suffix_cons _ _
  | @endTransmission bytes finish next result due =>
      cases result with
      | ok done => exact List.suffix_cons _ _
      | error fault => exact List.suffix_refl _
  | claim first => exact List.suffix_cons _ _
  | release follow => exact List.suffix_cons _ _
  | _ => exact List.suffix_refl _

end Advance

theorem Turn.journal_suffix {α σ : Type} {number : Nat} {first last : Bench σ × Caller α}
    (turn : Turn number first last) : first.1.journal <:+ last.1.journal := by
  induction turn with
  | single advance => exact advance.journal_suffix
  | tail earlier advance inductionHypothesis =>
      exact inductionHypothesis.trans advance.journal_suffix

/-- A caller that waits for a reply ends its exchange when it goes on. -/
theorem Caller.ended_of_awaiting {α σ : Type} (number : Nat) (command : String) (deadline : Nat)
    (next : Except Fault String → Routine α) (bench : Bench σ) :
    ∃ outcome, (⟨bench.clock, .ended number command outcome⟩ :: bench.journal) <:+
      ((Caller.awaiting command deadline next).goOn number bench).1.journal := by
  have goesOn (outcome : Except Fault QueuedLine) (ended : Bench σ) :
      (ended.concluded number command outcome).journal <:+
        (Caller.follow number command next (ended.conclude number command outcome)).1.journal :=
    (Turn.of_run number (next (outcome.map QueuedLine.text)) _).journal_suffix
  change ∃ outcome, _ <:+
    (Caller.follow number command next (bench.takeReply number command)).1.journal
  unfold Bench.takeReply
  split
  next line others first => exact ⟨.ok line, goesOn (.ok line) (bench.onLink Link.empty)⟩
  next empty =>
    split
    next woken => exact ⟨.error (.wokenWithoutLine command), goesOn _ bench⟩
    next asleep =>
      exact ⟨.error (.replyTimedOut command), goesOn _ (bench.onLink Link.countReplyTimeout)⟩

namespace Traffic

variable {α σ : Type}

/-- Every caller that waits for a reply can go on as soon as a line has come in, and no later than at
its deadline. Time does not pass until it has gone on, and by going on it ends its exchange. -/
def IsPrompt (traffic : Traffic α σ) : Prop :=
  ∀ index command deadline next,
    traffic.callers[index]? = some (.awaiting command deadline next) →
    traffic.clock ≤ deadline ∧
      (traffic.canTurn index = true ↔
        Journal.fresh traffic.journal ≠ [] ∨ traffic.clock = deadline) ∧
      (traffic.canTurn index = true →
        traffic.can .elapse = false ∧
        ∃ outcome, (⟨traffic.clock, .ended index command outcome⟩ :: traffic.journal) <:+
          (traffic.make (.turn index)).journal)

theorem IsRegular.isPrompt {start : Link} {traffic : Traffic α σ}
    (regular : traffic.IsRegular start) (onTime : traffic.IsOnTime) : traffic.IsPrompt := by
  intro index command deadline next here
  have early := onTime index _ deadline here rfl
  obtain ⟨mark, sent, answer, written, _⟩ := regular.stands index _ here
  have woken : traffic.bench.station.link.isWoken = true ↔ Journal.fresh traffic.journal ≠ [] :=
    regular.recorded.isWoken_iff written
  refine ⟨early, ?_, ?_⟩
  · unfold canTurn
    rw [here]
    simp only [Caller.canGoOn, Bool.or_eq_true, woken, decide_eq_true_eq]
    change _ ∨ deadline ≤ traffic.clock ↔ _
    constructor
    · rintro (fresh | late)
      · exact Or.inl fresh
      · exact Or.inr (Nat.le_antisymm early late)
    · rintro (fresh | same)
      · exact Or.inl fresh
      · exact Or.inr (Nat.le_of_eq same.symm)
  · intro possible
    have busy : traffic.isBusy = true := isBusy_iff.mpr (Or.inl ⟨index, possible⟩)
    refine ⟨by simp [can, busy], ?_⟩
    obtain ⟨outcome, ended⟩ :=
      Caller.ended_of_awaiting index command deadline next traffic.bench
    refine ⟨outcome, ?_⟩
    change _ <:+ (traffic.turn index).journal
    unfold turn
    rw [here]
    exact ended

/-- No lost wake and no wake for nothing. Callers are told what the journal records; every exchange in
it whose write has succeeded ends as the lines that came in demand, and leaves the queue empty when it
takes one; and whoever waits for a reply goes on in time. -/
theorem Reaches.wakes {first : Bench σ} (fresh : first.IsFresh) {routines : List (Routine α)}
    {last : Traffic α σ} (reached : (Traffic.start first routines).Reaches last) :
    last.IsTold True routines ∧ last.IsPrompt ∧
      ∀ (exchange : Exchange) (later before : List Entry),
        exchange.IsIn last.journal later before →
        exchange.IsAttentive (exchange.sent + first.station.link.replyBound) later ∧
          ((∃ line, exchange.outcome = .ok line) →
            (∀ entry ∈ later, entry.event.lines = []) →
            last.bench.station.link.queue.lines = []) := by
  have regular := reached.regular fresh
  refine ⟨reached.told fresh, regular.isPrompt reached.onTime, ?_⟩
  intro exchange later before within
  refine ⟨within.isAttentive regular.recorded.orderly, ?_⟩
  intro answered silent
  rw [regular.recorded.queue]
  exact within.queue_eq_nil answered silent

/-- A line comes in for the first caller, and the second one takes it away by a reset. -/
theorem Reaches.wakes_reset :
    let farEnd : FarEnd Unit := ⟨(), fun _ _ => ((), ["ok"])⟩
    let first := Bench.opened { Settings.defaults with tickPeriod := 0 } farEnd ⟨5, none⟩
    let routines := [Routine.send "A",
      Routine.pause 5 (.act (.receive (Delivery.payload ["no"])) (.act .resetLink (.done (.ok ""))))]
    let last := (Traffic.start first routines).play
      [.turn 0, .turn 1, .elapse, .turn 1, .turn 0]
    (last.IsTold True routines ∧ last.IsPrompt ∧
      ∀ (exchange : Exchange) (later before : List Entry),
        exchange.IsIn last.journal later before →
        exchange.IsAttentive (exchange.sent + first.station.link.replyBound) later ∧
          ((∃ line, exchange.outcome = .ok line) →
            (∀ entry ∈ later, entry.event.lines = []) →
            last.bench.station.link.queue.lines = [])) ∧
      last.results = [some (5, .error (.wokenWithoutLine "A")), some (5, .ok "")] :=
  ⟨Reaches.wakes (Bench.isFresh_opened _ _ _) (reaches_play _ _), by rfl⟩

end Traffic

end DelayGenerator
