/-
This file shows that the journal tells the truth: in every run its entries follow one another as
`Journal.Admits` says, the link is what they make of it, and every caller stands where the exchange
under way says it does.
-/

import DelayGenerator.Proofs.Bench.Advance
import DelayGenerator.Proofs.Bench.Clock
import DelayGenerator.Proofs.Bench.Journal

namespace DelayGenerator

/-- No event changes the unfinished line. -/
theorem Event.onLink_framer (event : Event) (link : Link) (framer : Framer) :
    event.onLink { link with framer := framer } = { event.onLink link with framer := framer } := by
  unfold Event.onLink
  split <;> rfl

/-- No event changes the bound on the wait for a reply. -/
theorem Event.replyBound_onLink (event : Event) (link : Link) :
    (event.onLink link).replyBound = link.replyBound := by
  unfold Event.onLink
  split <;> rfl

namespace Journal

theorem replyBound_link (start : Link) (journal : List Entry) :
    (link start journal).replyBound = start.replyBound := by
  induction journal with
  | nil => rfl
  | cons entry past inductionHypothesis =>
      rw [link, Event.replyBound_onLink, inductionHypothesis]

end Journal

namespace Bench

variable {σ : Type}

def journal (bench : Bench σ) : List Entry := bench.station.journal

/-- The journal of a bench is empty, and nobody exchanges a command. -/
structure IsFresh (bench : Bench σ) : Prop where
  journal : bench.station.journal = []
  sendLine : bench.sendLine = []

/-- A bench at which nothing has happened, with the port open. -/
def opened (settings : Settings) (farEnd : FarEnd σ) (pace : Pace) : Bench σ where
  station := .idle settings { Port.ready with isOpen := true }
  farEnd := farEnd
  pace := pace
  deliveries := []
  sendLine := []
  cycleLine := []

theorem isFresh_opened (settings : Settings) (farEnd : FarEnd σ) (pace : Pace) :
    (opened settings farEnd pace).IsFresh := ⟨rfl, rfl⟩

/-- The journal of a bench is orderly and up to date, and explains the link. -/
structure IsRecorded (start : Link) (bench : Bench σ) : Prop where
  orderly : Journal.IsOrderly start bench.journal
  upToDate : ∀ entry ∈ bench.journal, entry.time ≤ bench.clock
  link : bench.station.link =
    { Journal.link start bench.journal with framer := bench.station.link.framer }

namespace IsRecorded

variable {start : Link} {bench after : Bench σ}

theorem queue (recorded : bench.IsRecorded start) :
    bench.station.link.queue = (Journal.link start bench.journal).queue := by
  rw [recorded.link]

theorem isWoken (recorded : bench.IsRecorded start) :
    bench.station.link.isWoken = (Journal.link start bench.journal).isWoken := by
  rw [recorded.link]

theorem replyBound (recorded : bench.IsRecorded start) :
    bench.station.link.replyBound = start.replyBound := by
  rw [recorded.link]
  exact Journal.replyBound_link start bench.journal

theorem of_fresh (fresh : bench.IsFresh) : bench.IsRecorded bench.station.link where
  orderly := by
    have empty : bench.journal = [] := fresh.journal
    rw [empty]
    trivial
  upToDate := by
    have empty : bench.journal = [] := fresh.journal
    rw [empty]
    simp
  link := by
    have empty : bench.journal = [] := fresh.journal
    rw [empty]
    rfl

/-- An event that the journal admits may be recorded once the link has followed it. -/
theorem record (recorded : bench.IsRecorded start) {event : Event}
    (admits : Journal.Admits start bench.journal ⟨bench.clock, event⟩)
    (journal : after.journal = ⟨bench.clock, event⟩ :: bench.journal)
    (clock : after.clock = bench.clock)
    (link : after.station.link =
      { event.onLink bench.station.link with framer := after.station.link.framer }) :
    after.IsRecorded start where
  orderly := by
    rw [journal]
    exact ⟨⟨admits, recorded.upToDate⟩, recorded.orderly⟩
  upToDate := by
    intro entry member
    rw [journal] at member
    rw [clock]
    rcases List.mem_cons.mp member with rfl | earlier
    · exact Nat.le_refl _
    · exact recorded.upToDate entry earlier
  link := by
    rw [recorded.link, Event.onLink_framer] at link
    rw [journal]
    exact link

/-- What changes neither the journal nor the link may happen at any time. -/
theorem keep (recorded : bench.IsRecorded start) (journal : after.journal = bench.journal)
    (clock : bench.clock ≤ after.clock) (link : after.station.link = bench.station.link) :
    after.IsRecorded start where
  orderly := by rw [journal]; exact recorded.orderly
  upToDate := by
    intro entry member
    rw [journal] at member
    exact Nat.le_trans (recorded.upToDate entry member) clock
  link := by rw [journal, link]; exact recorded.link

theorem receive (recorded : bench.IsRecorded start) (deliveries : List Delivery)
    (bytes : List UInt8) :
    (onStation (Station.receive bytes) { bench with deliveries := deliveries }).IsRecorded start :=
  recorded.record (.aside rfl) rfl rfl rfl

theorem perform (recorded : bench.IsRecorded start) (caller : Nat) (act : Act) :
    (bench.onStation (Station.perform caller act)).IsRecorded start := by
  cases act with
  | receive bytes => exact (recorded.receive bench.deliveries bytes).record (.aside rfl) rfl rfl rfl
  | _ => exact recorded.record (.aside rfl) rfl rfl rfl

theorem deliver (recorded : bench.IsRecorded start) (index : Nat) :
    (bench.deliver index).IsRecorded start := by
  unfold Bench.deliver
  split
  · exact recorded.receive _ _
  · exact recorded.receive _ _
  · exact recorded.keep rfl (Nat.le_refl _) rfl
  · exact recorded

/-- An exchange begins while none is under way. -/
theorem started (recorded : bench.IsRecorded start) (idle : Journal.phase bench.journal = .idle)
    (caller : Nat) (command : String) : (bench.started caller command).IsRecorded start := by
  have admits : Journal.Admits start bench.journal
      ⟨bench.clock, .began caller command bench.station.link.queue.next⟩ := by
    rw [recorded.queue]
    exact .began _ _ _ idle
  exact recorded.record admits rfl rfl rfl

/-- The command of the exchange under way is written. -/
theorem transfer (recorded : bench.IsRecorded start) {caller mark : Nat} {command : String}
    (begun : Journal.phase bench.journal = .begun caller command mark) :
    (bench.transfer caller command).IsRecorded start :=
  recorded.record (.wrote _ _ begun) rfl rfl rfl

/-- Someone else passes a command on. -/
theorem endTransmission (recorded : bench.IsRecorded start) {caller : Nat}
    (foreign : (Journal.phase bench.journal).caller? ≠ some caller) (bytes : List UInt8)
    (result : Except Fault Unit) : (bench.endTransmission caller bytes result).IsRecorded start := by
  cases result with
  | ok done => exact recorded.record (.passed _ _ _ foreign) rfl rfl rfl
  | error fault => exact recorded

/-- The write of the exchange under way fails. -/
theorem writeFailed (recorded : bench.IsRecorded start) {caller mark : Nat} {command : String}
    (begun : Journal.phase bench.journal = .begun caller command mark) (fault : Fault) :
    (bench.writeFailed caller command fault).IsRecorded start := by
  cases fault with
  | notConnected => exact recorded.record (.failed _ begun (.inl rfl)) rfl rfl rfl
  | _ => exact recorded.record (.failed _ begun (.inr rfl)) rfl rfl rfl

/-- The exchange under way takes a line. -/
theorem takeLine (recorded : bench.IsRecorded start) {caller mark sent : Nat} {command : String}
    {answer : List String} {line : QueuedLine} {others : List QueuedLine}
    (written : Journal.phase bench.journal = .written caller command mark sent answer)
    (first : bench.station.link.queue.first? = some (line, others)) :
    ((bench.onLink Link.empty).concluded caller command (.ok line)).IsRecorded start := by
  rw [recorded.queue] at first
  exact recorded.record (.replied _ written first) rfl rfl rfl

/-- The exchange under way is woken and finds no line. -/
theorem wakeInVain (recorded : bench.IsRecorded start) {caller mark sent : Nat} {command : String}
    {answer : List String}
    (written : Journal.phase bench.journal = .written caller command mark sent answer)
    (empty : bench.station.link.queue.first? = none)
    (woken : bench.station.link.isWoken = true) :
    (bench.concluded caller command (.error (.wokenWithoutLine command))).IsRecorded start := by
  rw [recorded.queue] at empty
  rw [recorded.isWoken] at woken
  exact recorded.record (.wokenInVain _ written empty woken) rfl rfl rfl

/-- The exchange under way has waited long enough. -/
theorem timeOut (recorded : bench.IsRecorded start) {caller mark sent : Nat} {command : String}
    {answer : List String}
    (written : Journal.phase bench.journal = .written caller command mark sent answer)
    (empty : bench.station.link.queue.first? = none)
    (asleep : bench.station.link.isWoken = false) (late : sent + start.replyBound ≤ bench.clock) :
    ((bench.onLink Link.countReplyTimeout).concluded caller command
      (.error (.replyTimedOut command))).IsRecorded start := by
  rw [recorded.queue] at empty
  rw [recorded.isWoken] at asleep
  exact recorded.record (.timedOut _ written empty asleep late) rfl rfl rfl

end IsRecorded

/-- What a caller does at the station is no part of an exchange. -/
theorem phase_perform (bench : Bench σ) (caller : Nat) (act : Act) :
    Journal.phase (bench.onStation (Station.perform caller act)).journal =
      Journal.phase bench.journal := by
  cases act <;> rfl

theorem phase_endTransmission {bench : Bench σ} {caller : Nat}
    (foreign : (Journal.phase bench.journal).caller? ≠ some caller) (bytes : List UInt8)
    (result : Except Fault Unit) :
    Journal.phase (bench.endTransmission caller bytes result).journal =
      Journal.phase bench.journal := by
  cases result with
  | ok done => exact Phase.after_foreign foreign _ _ _
  | error fault => rfl

theorem sendLine_endTransmission (bench : Bench σ) (caller : Nat) (bytes : List UInt8)
    (result : Except Fault Unit) :
    (bench.endTransmission caller bytes result).sendLine = bench.sendLine := by
  cases result <;> rfl

theorem sendLine_deliver (bench : Bench σ) (index : Nat) :
    (bench.deliver index).sendLine = bench.sendLine := by
  unfold deliver
  split <;> rfl

theorem phase_deliver (bench : Bench σ) (index : Nat) :
    Journal.phase (bench.deliver index).journal = Journal.phase bench.journal := by
  unfold deliver
  split <;> rfl

theorem phase_writeFailed (bench : Bench σ) (caller : Nat) (command : String) (fault : Fault) :
    Journal.phase (bench.writeFailed caller command fault).journal = .idle := by
  cases fault <;> rfl

theorem sendLine_writeFailed (bench : Bench σ) (caller : Nat) (command : String) (fault : Fault) :
    (bench.writeFailed caller command fault).sendLine = bench.sendLine.tail := by
  cases fault <;> rfl

theorem phase_transfer {bench : Bench σ} {caller mark : Nat} {command : String}
    (begun : Journal.phase bench.journal = .begun caller command mark) :
    Journal.phase (bench.transfer caller command).journal =
      .written caller command mark bench.clock
        (bench.farEnd.respond bench.farEnd.state command).2 := by
  change (Journal.phase bench.journal).after _ = _
  rw [begun]
  simp [Phase.after]
  rfl

end Bench

namespace Caller

variable {α : Type}

/-- Whether a caller stands in line to exchange a command, or does so. -/
def isInLine : Caller α → Bool
  | queued _ _ => true
  | writing _ _ _ _ => true
  | awaiting _ _ _ => true
  | _ => false

/-- A caller, known by its number, stands where the exchange under way says. -/
def StandsAt (replyBound number : Nat) (phase : Phase) : Caller α → Prop
  | writing command _ _ _ => ∃ mark, phase = .begun number command mark
  | awaiting command deadline _ =>
    ∃ mark sent answer,
      phase = .written number command mark sent answer ∧ deadline = sent + replyBound
  | _ => phase.caller? ≠ some number

/-- A caller that takes no part in an exchange does not mind who does. -/
theorem StandsAt.elsewhere {replyBound number : Nat} {phase later : Phase} {caller : Caller α}
    (stands : caller.StandsAt replyBound number phase) (before : phase.caller? ≠ some number)
    (after : later.caller? ≠ some number) : caller.StandsAt replyBound number later := by
  cases caller with
  | writing command finish result next =>
      obtain ⟨mark, rfl⟩ := stands
      exact absurd rfl before
  | awaiting command deadline next =>
      obtain ⟨mark, sent, answer, rfl, _⟩ := stands
      exact absurd rfl before
  | _ => exact after

end Caller

namespace Traffic

variable {α σ : Type}

def journal (traffic : Traffic α σ) : List Entry := traffic.bench.journal

/-- The journal tells the truth about the link, the line of those who want to exchange a command, and
what every caller is doing. -/
structure IsRegular (start : Link) (traffic : Traffic α σ) : Prop where
  recorded : traffic.bench.IsRecorded start
  nodup : traffic.bench.sendLine.Nodup
  inLine : ∀ index, index ∈ traffic.bench.sendLine ↔
    ∃ caller, traffic.callers[index]? = some caller ∧ caller.isInLine = true
  stands : ∀ index (caller : Caller α), traffic.callers[index]? = some caller →
    caller.StandsAt start.replyBound index (Journal.phase traffic.journal)
  first : ∀ index, (Journal.phase traffic.journal).caller? = some index →
    traffic.bench.sendLine.head? = some index

namespace IsRegular

variable {start : Link} {before : Traffic α σ} {index : Nat} {caller next : Caller α}
  {bench : Bench σ}

/-- What is left to show when a caller has advanced: the others have kept their places. -/
theorem set (regular : before.IsRegular start) (here : before.callers[index]? = some caller)
    (recorded : bench.IsRecorded start) (nodup : bench.sendLine.Nodup)
    (others : ∀ other, other ≠ index → (other ∈ bench.sendLine ↔ other ∈ before.bench.sendLine))
    (own : index ∈ bench.sendLine ↔ next.isInLine = true)
    (stands : next.StandsAt start.replyBound index (Journal.phase bench.journal))
    (elsewhere : Journal.phase bench.journal = Journal.phase before.journal ∨
      ∀ other, other ≠ index → (Journal.phase before.journal).caller? ≠ some other ∧
        (Journal.phase bench.journal).caller? ≠ some other)
    (first : ∀ other, (Journal.phase bench.journal).caller? = some other →
      bench.sendLine.head? = some other) :
    IsRegular start ⟨bench, before.callers.set index next⟩ where
  recorded := recorded
  nodup := nodup
  inLine := by
    intro other
    have inside := (List.getElem?_eq_some_iff.mp here).1
    by_cases same : index = other
    · subst same
      simp only [own, List.getElem?_set, inside, if_true]
      simp
    · simp only [others other (Ne.symm same), regular.inLine other, List.getElem?_set, same, if_false]
  stands := by
    refine forall_set stands fun other standing differ there => ?_
    have earlier := regular.stands other standing there
    change standing.StandsAt start.replyBound other (Journal.phase bench.journal)
    rcases elsewhere with unchanged | free
    · rw [unchanged]
      exact earlier
    · have outside := free other differ
      exact earlier.elsewhere outside.1 outside.2
  first := first

/-- A caller outside the line takes no part in the exchange under way. -/
theorem free (regular : before.IsRegular start) (here : before.callers[index]? = some caller)
    (outside : caller.isInLine = false) : (Journal.phase before.journal).caller? ≠ some index := by
  have stands := regular.stands index caller here
  cases caller <;> simp_all [Caller.isInLine, Caller.StandsAt]

/-- A caller outside the line does something outside of exchanges. -/
theorem setOutside (regular : before.IsRegular start) (here : before.callers[index]? = some caller)
    (outside : caller.isInLine = false) (recorded : bench.IsRecorded start)
    (line : bench.sendLine = before.bench.sendLine)
    (phase : Journal.phase bench.journal = Journal.phase before.journal)
    (remains : next.isInLine = false) :
    IsRegular start ⟨bench, before.callers.set index next⟩ := by
  have free := regular.free here outside
  apply regular.set here recorded
  · rw [line]
    exact regular.nodup
  · intro other different
    rw [line]
  · rw [line, regular.inLine index]
    simp [here, outside, remains]
  · rw [phase]
    cases next <;> simp_all [Caller.isInLine, Caller.StandsAt]
  · exact Or.inl phase
  · rw [line, phase]
    exact regular.first

/-- While one caller is the first in the line, no other exchanges a command. -/
theorem caller?_ne (regular : before.IsRegular start) (first : before.bench.sendLine.head? = some index)
    {other : Nat} (different : other ≠ index) : (Journal.phase before.journal).caller? ≠ some other := by
  intro holds
  have holder := regular.first other holds
  rw [first] at holder
  exact different (Option.some.inj holder).symm

/-- The first in the line goes on with its exchange and keeps its place. -/
theorem setGoesOn (regular : before.IsRegular start)
    (here : before.callers[index]? = some caller) (recorded : bench.IsRecorded start)
    (first : before.bench.sendLine.head? = some index)
    (line : bench.sendLine = before.bench.sendLine)
    (own : (Journal.phase bench.journal).caller? = some index) (remains : next.isInLine = true)
    (stands : next.StandsAt start.replyBound index (Journal.phase bench.journal)) :
    IsRegular start ⟨bench, before.callers.set index next⟩ := by
  apply regular.set here recorded
  · rw [line]
    exact regular.nodup
  · intro other different
    rw [line]
  · rw [line]
    exact iff_of_true (List.mem_of_head? first) remains
  · exact stands
  · right
    intro other different
    rw [own]
    exact ⟨regular.caller?_ne first different, fun same => different (Option.some.inj same).symm⟩
  · intro other same
    rw [own] at same
    rw [line, ← Option.some.inj same]
    exact first

/-- The first in the line ends its exchange and leaves. -/
theorem setConcluded (regular : before.IsRegular start)
    (here : before.callers[index]? = some caller) (recorded : bench.IsRecorded start)
    (first : before.bench.sendLine.head? = some index)
    (line : bench.sendLine = before.bench.sendLine.tail)
    (phase : Journal.phase bench.journal = .idle) (leaves : next.isInLine = false) :
    IsRegular start ⟨bench, before.callers.set index next⟩ := by
  obtain ⟨rest, whole⟩ := List.head?_eq_some_iff.mp first
  have nodup := regular.nodup
  rw [whole] at nodup
  have alone := List.nodup_cons.mp nodup
  have line : bench.sendLine = rest := by rw [line, whole, List.tail_cons]
  apply regular.set here recorded
  · rw [line]
    exact alone.2
  · intro other different
    rw [line, whole]
    simp [different]
  · rw [line]
    simp [alone.1, leaves]
  · rw [phase]
    cases next <;> simp_all [Caller.isInLine, Caller.StandsAt, Phase.caller?]
  · right
    intro other different
    rw [phase]
    exact ⟨regular.caller?_ne first different, by simp [Phase.caller?]⟩
  · rw [phase]
    simp [Phase.caller?]

/-- A caller goes to the end of the line. -/
theorem join {command : String} {follow : Except Fault String → Routine α}
    {stripped : String} (regular : before.IsRegular start)
    (here : before.callers[index]? = some (.ready (.ask command follow))) :
    IsRegular start
      ⟨{ before.bench with sendLine := before.bench.sendLine ++ [index] },
        before.callers.set index (.queued stripped follow)⟩ := by
  have absent : index ∉ before.bench.sendLine := by
    rw [regular.inLine index]
    simp [here, Caller.isInLine]
  refine regular.set here ?_ ?_ ?_ ?_ ?_ ?_ ?_
  · exact regular.recorded.keep rfl (Nat.le_refl _) rfl
  · apply List.nodup_append.mpr
    refine ⟨regular.nodup, List.pairwise_singleton _ _, ?_⟩
    intro other member last found
    rw [List.mem_singleton.mp found]
    intro same
    rw [same] at member
    exact absent member
  · intro other different
    simp [different]
  · simp [Caller.isInLine]
  · exact regular.free here rfl
  · exact Or.inl rfl
  · intro other exchanging
    have holds := regular.first other exchanging
    simp [List.head?_append, holds]

/-- When the first in the line has not begun, no exchange is under way. -/
theorem idle {command : String} {follow : Except Fault String → Routine α}
    (regular : before.IsRegular start)
    (here : before.callers[index]? = some (.queued command follow))
    (first : before.bench.sendLine.head? = some index) : Journal.phase before.journal = .idle := by
  have stands : (Journal.phase before.journal).caller? ≠ some index := regular.stands index _ here
  apply Phase.eq_idle
  cases exchanging : (Journal.phase before.journal).caller? with
  | none => rfl
  | some holder =>
      have holds := regular.first holder exchanging
      rw [first] at holds
      rw [exchanging, Option.some.inj holds] at stands
      exact absurd rfl stands

/-- Every advance keeps the journal true. -/
theorem advance (regular : before.IsRegular start) (here : before.callers[index]? = some caller)
    (advance : Advance index before.bench caller bench next) :
    IsRegular start ⟨bench, before.callers.set index next⟩ := by
  have recorded := regular.recorded
  cases advance with
  | finish => exact regular.setOutside here rfl recorded rfl rfl rfl
  | look => exact regular.setOutside here rfl recorded rfl rfl rfl
  | act action follow =>
      exact regular.setOutside here rfl (recorded.perform index action) rfl
        (Bench.phase_perform _ _ _) rfl
  | refuse => exact regular.setOutside here rfl recorded rfl rfl rfl
  | join command follow isOpen =>
      exact regular.join here
  | start first course =>
      have idle := regular.idle here first
      exact regular.setGoesOn here (recorded.started idle index _) first rfl rfl rfl ⟨_, rfl⟩
  | failAtOnce first course =>
      have idle := regular.idle here first
      exact regular.setConcluded here ((recorded.started idle index _).writeFailed rfl _) first
        (Bench.sendLine_writeFailed _ _ _ _) (Bench.phase_writeFailed _ _ _ _) rfl
  | write due =>
      obtain ⟨mark, begun⟩ := regular.stands index _ here
      have phase := Bench.phase_transfer begun
      have first : before.bench.sendLine.head? = some index := regular.first index (by rw [begun]; rfl)
      exact regular.setGoesOn here (recorded.transfer begun) first rfl (by rw [phase]; rfl) rfl
        ⟨mark, _, _, phase, by rw [recorded.replyBound]⟩
  | failLate due =>
      obtain ⟨mark, begun⟩ := regular.stands index _ here
      exact regular.setConcluded here (recorded.writeFailed begun _)
        (regular.first index (by rw [begun]; rfl))
        (Bench.sendLine_writeFailed _ _ _ _) (Bench.phase_writeFailed _ _ _ _) rfl
  | takeLine due first =>
      obtain ⟨mark, sent, answer, written, _⟩ := regular.stands index _ here
      exact regular.setConcluded here (recorded.takeLine written first)
        (regular.first index (by rw [written]; rfl)) rfl rfl rfl
  | wakeInVain empty woken =>
      obtain ⟨mark, sent, answer, written, _⟩ := regular.stands index _ here
      exact regular.setConcluded here (recorded.wakeInVain written empty woken)
        (regular.first index (by rw [written]; rfl)) rfl rfl rfl
  | timeOut empty asleep due =>
      obtain ⟨mark, sent, answer, written, rfl⟩ := regular.stands index _ here
      exact regular.setConcluded here (recorded.timeOut written empty asleep due)
        (regular.first index (by rw [written]; rfl)) rfl rfl rfl
  | failTransmission course =>
      exact regular.setOutside here rfl (recorded.keep rfl (Nat.le_refl _) rfl) rfl rfl rfl
  | startTransmission course =>
      exact regular.setOutside here rfl (recorded.keep rfl (Nat.le_refl _) rfl) rfl rfl rfl
  | endTransmission due =>
      have foreign := regular.free here rfl
      exact regular.setOutside here rfl (recorded.endTransmission foreign _ _)
        (Bench.sendLine_endTransmission _ _ _ _) (Bench.phase_endTransmission foreign _ _) rfl
  | skip => exact regular.setOutside here rfl recorded rfl rfl rfl
  | sleep => exact regular.setOutside here rfl recorded rfl rfl rfl
  | wake => exact regular.setOutside here rfl recorded rfl rfl rfl
  | rest => exact regular.setOutside here rfl recorded rfl rfl rfl
  | enlist => exact regular.setOutside here rfl (recorded.keep rfl (Nat.le_refl _) rfl) rfl rfl rfl
  | claim first =>
      exact regular.setOutside here rfl (recorded.record (.aside rfl) rfl rfl rfl) rfl rfl rfl
  | release =>
      exact regular.setOutside here rfl (recorded.record (.aside rfl) rfl rfl rfl) rfl rfl rfl

/-- What happens without the callers keeps the journal true. -/
theorem onBench (regular : before.IsRegular start) (recorded : bench.IsRecorded start)
    (line : bench.sendLine = before.bench.sendLine)
    (phase : Journal.phase bench.journal = Journal.phase before.journal) :
    IsRegular start ⟨bench, before.callers⟩ where
  recorded := recorded
  nodup := by rw [line]; exact regular.nodup
  inLine := by rw [line]; exact regular.inLine
  stands := by
    intro index caller here
    change caller.StandsAt start.replyBound index (Journal.phase bench.journal)
    rw [phase]
    exact regular.stands index caller here
  first := by
    intro index exchanging
    change (Journal.phase bench.journal).caller? = some index at exchanging
    rw [phase] at exchanging
    rw [line]
    exact regular.first index exchanging

theorem beat {after : Traffic α σ} (regular : before.IsRegular start) (beat : before.Beat after) :
    after.IsRegular start := by
  have recorded := regular.recorded
  cases beat with
  | advance here advance => exact regular.advance here advance
  | deliver index possible =>
      exact regular.onBench (recorded.deliver index) (Bench.sendLine_deliver _ _)
        (Bench.phase_deliver _ _)
  | tick possible => exact regular.onBench (recorded.record (.aside rfl) rfl rfl rfl) rfl rfl
  | elapse possible =>
      obtain ⟨time, made, later, _⟩ := clock_elapse possible
      rw [made]
      exact regular.onBench (recorded.keep rfl (Nat.le_of_lt later) rfl) rfl rfl

/-- The journal is true at the start of a run. -/
theorem of_fresh {first : Bench σ} (fresh : first.IsFresh) (routines : List (Routine α)) :
    (Traffic.start first routines).IsRegular first.station.link where
  recorded := .of_fresh fresh
  nodup := by
    change first.sendLine.Nodup
    rw [fresh.sendLine]
    exact List.Pairwise.nil
  inLine := by
    intro index
    change index ∈ first.sendLine ↔ _
    simp only [fresh.sendLine, List.not_mem_nil, false_iff, not_exists, not_and]
    intro caller here
    obtain ⟨routine, _, rfl⟩ := ready_of_start here
    simp [Caller.isInLine]
  stands := by
    intro index caller here
    obtain ⟨routine, _, rfl⟩ := ready_of_start here
    change (Journal.phase first.station.journal).caller? ≠ some index
    rw [fresh.journal]
    simp [Journal.phase, Phase.caller?]
  first := by
    intro index exchanging
    change (Journal.phase first.station.journal).caller? = some index at exchanging
    rw [fresh.journal] at exchanging
    simp [Journal.phase, Phase.caller?] at exchanging

end IsRegular

/-- The journal is true after every run. -/
theorem Reaches.regular {first : Bench σ} (fresh : first.IsFresh) {routines : List (Routine α)}
    {last : Traffic α σ} (reached : (Traffic.start first routines).Reaches last) :
    last.IsRegular first.station.link :=
  reached.invariant (IsRegular first.station.link) (.of_fresh fresh routines)
    fun _ _ beat regular => regular.beat beat

end Traffic

end DelayGenerator
