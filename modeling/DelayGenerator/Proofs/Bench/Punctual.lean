/-
This file follows the answers of a punctual far end: the port takes every command, every answer comes in
before its exchange times out, and no part of an answer but the last one completes a line. Then every
exchange ends with a line of the answer to its own command, if the answer has one.
-/

import DelayGenerator.Proofs.Bench.Answer
import DelayGenerator.Proofs.Bench.Course
import DelayGenerator.Proofs.Bench.Transcript

namespace DelayGenerator

/-- An event that a caller brings about by acting at the station. -/
def Event.isAct : Event → Bool
  | .did _ _ => true
  | _ => false

namespace Journal

/-- An exchange ends with a line of the answer to its command, or times out for want of one. -/
def IsAnswered (limit : Nat) (past : List Entry) (entry : Entry) : Prop :=
  ∀ caller command outcome, entry.event = .ended caller command outcome →
    ∃ mark sent answer,
      phase past = .written caller command mark sent answer ∧
      ((∃ line, outcome = .ok line ∧ line.text ∈ Delivery.framed limit answer) ∨
        outcome = .error (.replyTimedOut command) ∧ Delivery.framed limit answer = [])

/-- An entry that adds no line leaves the fresh lines as they are. -/
theorem fresh_cons {entry : Entry} (past : List Entry) (alone : entry.event.isBound = false)
    (silent : entry.event.lines = []) : fresh (entry :: past) = fresh past := by
  obtain ⟨time, event⟩ := entry
  cases event with
  | began caller command mark => contradiction
  | received lines =>
      change lines = [] at silent
      simp [fresh, Event.lines, silent]
  | _ => simp [fresh, Event.lines]

end Journal

namespace Bench

variable {σ : Type}

/-- The port is open and takes every command within the bound. -/
structure IsWorking (bench : Bench σ) : Prop where
  isOpen : bench.station.port.isOpen = true
  succeeds : bench.station.port.failsWrites = false
  stays : bench.station.port.dropsOnWrite = false
  inTime : ∃ duration,
    bench.station.port.writeTime = some duration ∧ duration ≤ bench.station.link.writeBound

namespace IsWorking

variable {bench : Bench σ}

theorem port_touched (working : bench.IsWorking) :
    bench.station.port.touched = bench.station.port := by
  simp [Port.touched, working.stays]

/-- A write ends well. -/
theorem write_eq (working : bench.IsWorking) (now : Nat) :
    ∃ finish, bench.station.port.write now bench.station.link.writeBound = .ends finish (.ok ()) := by
  obtain ⟨duration, takes, inTime⟩ := working.inTime
  refine ⟨now + duration, ?_⟩
  unfold Port.write
  rw [working.port_touched]
  simp [working.succeeds, working.isOpen, takes, inTime]

end IsWorking

/-- The far end takes every command, and no part of an answer but the last one completes a line. If it
is to, it answers in time. -/
structure AnswersWhole (inTime : Prop) (limit : Nat) (bench : Bench σ) : Prop where
  working : bench.IsWorking
  inTime : inTime → bench.pace.latency < bench.station.link.replyBound
  whole : ∀ state command,
    Delivery.IsWhole limit bench.pace.chunkSize (bench.farEnd.respond state command).2

/-- The port, the bounds and the far end are the same. -/
structure Resembles (after bench : Bench σ) : Prop where
  port : after.station.port = bench.station.port
  writeBound : after.station.link.writeBound = bench.station.link.writeBound
  replyBound : after.station.link.replyBound = bench.station.link.replyBound
  pace : after.pace = bench.pace
  respond : after.farEnd.respond = bench.farEnd.respond

theorem Resembles.answersWhole {inTime : Prop} {limit : Nat} {after bench : Bench σ}
    (same : after.Resembles bench) (able : bench.AnswersWhole inTime limit) :
    after.AnswersWhole inTime limit where
  working := by
    obtain ⟨isOpen, succeeds, stays, inTime⟩ := able.working
    constructor
    · rw [same.port]; exact isOpen
    · rw [same.port]; exact succeeds
    · rw [same.port]; exact stays
    · rw [same.port, same.writeBound]; exact inTime
  inTime := by
    rw [same.pace, same.replyBound]
    exact able.inTime
  whole := by
    rw [same.pace, same.respond]
    exact able.whole

/-- Nothing is on its way to the station. -/
structure IsQuiet (limit : Nat) (bench : Bench σ) : Prop where
  deliveries : bench.deliveries = []
  framer : bench.station.link.framer = .empty limit

/-- A part of the answer may have come in, and the rest of it is on its way. -/
structure Expects (limit sent : Nat) (answer : List String) (bench : Bench σ) : Prop where
  silent : Journal.fresh bench.journal = []
  early : bench.clock ≤ sent + bench.pace.latency
  coming : ∃ taken rest,
    rest ≠ [] ∧ Delivery.chunksOf bench.pace.chunkSize (Delivery.payload answer) = taken ++ rest ∧
      bench.deliveries = [⟨sent + bench.pace.latency, rest⟩] ∧
      bench.station.link.framer = ((Framer.empty limit).feed taken.flatten).1

/-- The whole answer has come in. -/
structure HasAnswer (limit : Nat) (answer : List String) (bench : Bench σ) : Prop
    extends IsQuiet limit bench where
  fresh : Journal.fresh bench.journal = Delivery.framed limit answer
  queued : Delivery.framed limit answer = [] ∨ bench.station.link.queue.lines ≠ []

/-- Whatever is on its way is the answer to the command of the exchange under way. -/
def IsSettled (limit : Nat) (bench : Bench σ) : Prop :=
  match Journal.phase bench.journal with
  | .idle => bench.IsQuiet limit
  | .begun _ _ _ => bench.IsQuiet limit ∧ Journal.fresh bench.journal = []
  | .written _ _ _ sent answer =>
    (∃ state command, answer = (bench.farEnd.respond state command).2) ∧
      (bench.Expects limit sent answer ∨ bench.HasAnswer limit answer)

/-- The far end is punctual, and has been so up to now. -/
structure IsPunctual (inTime : Prop) (limit : Nat) (bench : Bench σ) : Prop where
  able : bench.AnswersWhole inTime limit
  settled : bench.IsSettled limit
  answered : Journal.Every (Journal.IsAnswered limit) bench.journal
  passive : ∀ entry ∈ bench.journal, entry.event.isAct = false

section

variable {inTime : Prop} {limit caller mark sent : Nat} {command : String} {answer : List String}
  {bench after : Bench σ}

theorem isSettled_of_idle (idle : Journal.phase bench.journal = .idle) (quiet : bench.IsQuiet limit) :
    bench.IsSettled limit := by
  unfold IsSettled
  rw [idle]
  exact quiet

theorem isSettled_of_begun (begun : Journal.phase bench.journal = .begun caller command mark)
    (quiet : bench.IsQuiet limit) (silent : Journal.fresh bench.journal = []) :
    bench.IsSettled limit := by
  unfold IsSettled
  rw [begun]
  exact ⟨quiet, silent⟩

theorem isSettled_of_written
    (written : Journal.phase bench.journal = .written caller command mark sent answer)
    (given : ∃ state command, answer = (bench.farEnd.respond state command).2)
    (way : bench.Expects limit sent answer ∨ bench.HasAnswer limit answer) :
    bench.IsSettled limit := by
  unfold IsSettled
  rw [written]
  exact ⟨given, way⟩

/-- What is on its way does not depend on anything else. -/
theorem IsSettled.frame (settled : bench.IsSettled limit)
    (phase : Journal.phase after.journal = Journal.phase bench.journal)
    (fresh : Journal.fresh after.journal = Journal.fresh bench.journal)
    (clock : after.clock = bench.clock) (deliveries : after.deliveries = bench.deliveries)
    (link : after.station.link = bench.station.link) (same : after.Resembles bench) :
    after.IsSettled limit := by
  have quiet : bench.IsQuiet limit → after.IsQuiet limit := by
    rintro ⟨none, empty⟩
    exact ⟨by rw [deliveries, none], by rw [link, empty]⟩
  unfold IsSettled at settled ⊢
  rw [phase]
  split at settled
  · exact quiet settled
  · exact ⟨quiet settled.1, fresh.trans settled.2⟩
  · rw [same.respond]
    refine ⟨settled.1, ?_⟩
    rcases settled.2 with ⟨silent, early, coming⟩ | answered
    · left
      constructor
      · exact fresh.trans silent
      · rw [clock, same.pace]; exact early
      · rw [deliveries, link, same.pace]; exact coming
    · right
      constructor
      · exact quiet answered.toIsQuiet
      · exact fresh.trans answered.fresh
      · rw [link]; exact answered.queued

namespace IsPunctual

/-- What neither touches the line nor records anything may happen at any time. -/
theorem keep (punctual : bench.IsPunctual inTime limit) (station : after.station = bench.station)
    (farEnd : after.farEnd = bench.farEnd) (pace : after.pace = bench.pace)
    (deliveries : after.deliveries = bench.deliveries) : after.IsPunctual inTime limit := by
  have same : after.Resembles bench := by
    constructor <;> simp only [station, farEnd, pace]
  have journal : after.journal = bench.journal := congrArg Station.journal station
  constructor
  · exact same.answersWhole punctual.able
  · apply punctual.settled.frame _ _ _ deliveries _ same
    · rw [journal]
    · rw [journal]
    · exact congrArg Station.clock station
    · rw [station]
  · rw [journal]; exact punctual.answered
  · rw [journal]; exact punctual.passive

/-- What is left to show when something has been recorded. -/
theorem record (punctual : bench.IsPunctual inTime limit) (same : after.Resembles bench) {entry : Entry}
    (journal : after.journal = entry :: bench.journal) (passive : entry.event.isAct = false)
    (answered : Journal.IsAnswered limit bench.journal entry) (settled : after.IsSettled limit) :
    after.IsPunctual inTime limit where
  able := same.answersWhole punctual.able
  settled := settled
  answered := by
    rw [journal]
    exact ⟨answered, punctual.answered⟩
  passive := by
    rw [journal]
    intro other member
    rcases List.mem_cons.mp member with rfl | earlier
    · exact passive
    · exact punctual.passive other earlier

/-- An entry that ends no exchange is no answer. -/
theorem answered_of_open (past : List Entry) {entry : Entry}
    (goesOn : ∀ caller command outcome, entry.event ≠ .ended caller command outcome) :
    Journal.IsAnswered limit past entry :=
  fun caller command outcome same => absurd same (goesOn caller command outcome)

/-- What is recorded aside leaves alone what is on its way. -/
theorem aside (punctual : bench.IsPunctual inTime limit) (same : after.Resembles bench) {entry : Entry}
    (journal : after.journal = entry :: bench.journal) (aside : entry.event.isAside = true)
    (passive : entry.event.isAct = false) (silent : entry.event.lines = [])
    (clock : after.clock = bench.clock) (deliveries : after.deliveries = bench.deliveries)
    (link : after.station.link = bench.station.link) : after.IsPunctual inTime limit := by
  apply punctual.record same journal passive
  · apply answered_of_open
    intro caller command outcome ended
    rw [ended] at aside
    contradiction
  · apply punctual.settled.frame _ _ clock deliveries link same
    · rw [journal, Journal.phase, Phase.after_aside _ aside]
    · rw [journal]
      apply Journal.fresh_cons _ _ silent
      cases event : entry.event <;> simp_all [Event.isAside, Event.isBound]

/-- While no exchange is under way nothing is on its way. -/
theorem quiet_of_idle (punctual : bench.IsPunctual inTime limit)
    (idle : Journal.phase bench.journal = .idle) : bench.IsQuiet limit := by
  have settled := punctual.settled
  unfold IsSettled at settled
  rw [idle] at settled
  exact settled

theorem quiet_of_begun (punctual : bench.IsPunctual inTime limit)
    (begun : Journal.phase bench.journal = .begun caller command mark) :
    bench.IsQuiet limit ∧ Journal.fresh bench.journal = [] := by
  have settled := punctual.settled
  unfold IsSettled at settled
  rw [begun] at settled
  exact settled

theorem way_of_written (punctual : bench.IsPunctual inTime limit)
    (written : Journal.phase bench.journal = .written caller command mark sent answer) :
    (∃ state command, answer = (bench.farEnd.respond state command).2) ∧
      (bench.Expects limit sent answer ∨ bench.HasAnswer limit answer) := by
  have settled := punctual.settled
  unfold IsSettled at settled
  rw [written] at settled
  exact settled

theorem started (punctual : bench.IsPunctual inTime limit)
    (idle : Journal.phase bench.journal = .idle) (caller : Nat) (command : String) :
    (bench.started caller command).IsPunctual inTime limit := by
  have quiet := punctual.quiet_of_idle idle
  have same : (bench.started caller command).Resembles bench :=
    ⟨punctual.able.working.port_touched, rfl, rfl, rfl, rfl⟩
  refine punctual.record same rfl rfl ?_ ?_
  · exact answered_of_open _ fun _ _ _ same => by contradiction
  · exact isSettled_of_begun rfl ⟨quiet.deliveries, quiet.framer⟩ rfl

/-- A command is written, and its answer sets out. -/
theorem transfer (punctual : bench.IsPunctual inTime limit)
    (begun : Journal.phase bench.journal = .begun caller command mark) :
    (bench.transfer caller command).IsPunctual inTime limit := by
  obtain ⟨quiet, silent⟩ := punctual.quiet_of_begun begun
  have silent : Journal.fresh (bench.transfer caller command).journal = [] :=
    (Journal.fresh_cons _ rfl rfl).trans silent
  have same : (bench.transfer caller command).Resembles bench := ⟨rfl, rfl, rfl, rfl, rfl⟩
  refine punctual.record same rfl rfl ?_ ?_
  · exact answered_of_open _ fun _ _ _ same => by contradiction
  · apply isSettled_of_written (phase_transfer begun) ⟨bench.farEnd.state, command, rfl⟩
    generalize answer : (bench.farEnd.respond bench.farEnd.state command).2 = lines
    have deliveries : (bench.transfer caller command).deliveries =
        if lines.isEmpty then [] else
          [⟨bench.clock + bench.pace.latency,
            Delivery.chunksOf bench.pace.chunkSize (Delivery.payload lines)⟩] := by
      rw [← answer]
      simp only [Bench.transfer, Bench.record, onStation, quiet.deliveries, List.nil_append]
    by_cases none : lines = []
    · right
      rw [none] at deliveries ⊢
      exact ⟨⟨deliveries, quiet.framer⟩, silent, Or.inl rfl⟩
    · left
      rw [if_neg (by simpa using none)] at deliveries
      refine ⟨silent, Nat.le_add_right _ _, [], _, ?_, rfl, deliveries, quiet.framer⟩
      exact Delivery.chunksOf_ne_nil _ (Delivery.payload_ne_nil none)

/-- An exchange for which lines have come in has its answer. -/
theorem answer_of_fresh (punctual : bench.IsPunctual inTime limit)
    (written : Journal.phase bench.journal = .written caller command mark sent answer)
    (fresh : Journal.fresh bench.journal ≠ []) : bench.HasAnswer limit answer := by
  rcases (punctual.way_of_written written).2 with ⟨silent, _, _⟩ | answered
  · exact absurd silent fresh
  · exact answered

/-- An exchange that has reached its deadline has its answer, if answers come in time. -/
theorem answer_of_due (punctual : bench.IsPunctual inTime limit)
    (written : Journal.phase bench.journal = .written caller command mark sent answer)
    (patient : inTime) (due : sent + bench.station.link.replyBound ≤ bench.clock) :
    bench.HasAnswer limit answer := by
  rcases (punctual.way_of_written written).2 with ⟨_, early, _⟩ | answered
  · have soon := punctual.able.inTime patient
    omega
  · exact answered

/-- The exchange under way ends. -/
theorem concluded (punctual : bench.IsPunctual inTime limit) {outcome : Except Fault QueuedLine}
    (written : Journal.phase bench.journal = .written caller command mark sent answer)
    (answered : bench.HasAnswer limit answer)
    (right : (∃ line, outcome = .ok line ∧ line.text ∈ Delivery.framed limit answer) ∨
      outcome = .error (.replyTimedOut command) ∧ Delivery.framed limit answer = [])
    (same : after.Resembles bench) (framer : after.station.link.framer = bench.station.link.framer)
    (deliveries : after.deliveries = bench.deliveries)
    (journal : after.journal = ⟨bench.clock, .ended caller command outcome⟩ :: bench.journal) :
    after.IsPunctual inTime limit := by
  apply punctual.record same journal rfl
  · intro other asked given same
    cases same
    exact ⟨mark, sent, answer, written, right⟩
  · apply isSettled_of_idle
    · rw [journal]
      rfl
    · exact ⟨deliveries.trans answered.deliveries, framer.trans answered.framer⟩

/-- What is left to show when a chunk has come in. -/
theorem received (punctual : bench.IsPunctual inTime limit) (deliveries : List Delivery)
    (chunk : List UInt8)
    (written : Journal.phase bench.journal = .written caller command mark sent answer)
    (way : (onStation (Station.receive chunk) { bench with deliveries := deliveries }).Expects limit
        sent answer ∨
      (onStation (Station.receive chunk) { bench with deliveries := deliveries }).HasAnswer limit
        answer) :
    (onStation (Station.receive chunk) { bench with deliveries := deliveries }).IsPunctual inTime limit := by
  have same : (onStation (Station.receive chunk) { bench with deliveries := deliveries }).Resembles
      bench := ⟨rfl, rfl, rfl, rfl, rfl⟩
  refine punctual.record same rfl rfl ?_ ?_
  · exact answered_of_open _ fun _ _ _ same => by contradiction
  · have phase : Journal.phase
        (onStation (Station.receive chunk) { bench with deliveries := deliveries }).journal =
          .written caller command mark sent answer := (Phase.after_aside _ rfl).trans written
    exact isSettled_of_written phase (punctual.way_of_written written).1 way

/-- With its last chunk the whole answer has come in. -/
theorem hasAnswer_receive {taken : List (List UInt8)} {chunk : List UInt8}
    (silent : Journal.fresh bench.journal = [])
    (isWhole : Delivery.IsWhole limit bench.pace.chunkSize answer)
    (chunks : Delivery.chunksOf bench.pace.chunkSize (Delivery.payload answer) = taken ++ [chunk])
    (framer : bench.station.link.framer = ((Framer.empty limit).feed taken.flatten).1) :
    (onStation (Station.receive chunk) { bench with deliveries := [] }).HasAnswer limit answer := by
  have last := isWhole.feed_last chunks
  rw [← framer] at last
  refine ⟨⟨rfl, congrArg Prod.fst last⟩, ?_, ?_⟩
  · change Journal.fresh bench.journal ++ (bench.station.link.framer.feed chunk).2 = _
    rw [silent, last]
    rfl
  · by_cases none : Delivery.framed limit answer = []
    · exact Or.inl none
    · right
      change (bench.station.link.queue.pushAll (bench.station.link.framer.feed chunk).2).lines ≠ []
      rw [last]
      exact ReplyQueue.lines_pushAll_ne_nil (Or.inr none)

/-- Before its last chunk the rest of the answer is on its way. -/
theorem expects_receive {taken rest : List (List UInt8)} {chunk : List UInt8}
    (silent : Journal.fresh bench.journal = []) (early : bench.clock ≤ sent + bench.pace.latency)
    (isWhole : Delivery.IsWhole limit bench.pace.chunkSize answer) (some : rest ≠ [])
    (chunks : Delivery.chunksOf bench.pace.chunkSize (Delivery.payload answer) = taken ++ chunk :: rest)
    (framer : bench.station.link.framer = ((Framer.empty limit).feed taken.flatten).1) :
    (onStation (Station.receive chunk)
      { bench with deliveries := [⟨sent + bench.pace.latency, rest⟩] }).Expects limit sent answer := by
  have none := isWhole.lines_eq_nil chunks some
  rw [← framer] at none
  refine ⟨?_, early, taken ++ [chunk], rest, some, ?_, rfl, ?_⟩
  · change Journal.fresh bench.journal ++ (bench.station.link.framer.feed chunk).2 = _
    rw [silent, none]
    rfl
  · exact chunks.trans (List.append_cons _ _ _)
  · change (bench.station.link.framer.feed chunk).1 = _
    rw [framer, List.flatten_append, List.flatten_singleton, Framer.feedAppend]

/-- A chunk of the answer comes in. -/
theorem deliver (punctual : bench.IsPunctual inTime limit) {index : Nat}
    (possible : bench.canDeliver index = true) : (bench.deliver index).IsPunctual inTime limit := by
  have inside := lt_of_canDeliver possible
  have settled := punctual.settled
  unfold IsSettled at settled
  have nothing (quiet : bench.IsQuiet limit) : False := by
    rw [quiet.deliveries] at inside
    contradiction
  split at settled
  · exact (nothing settled).elim
  · exact (nothing settled.1).elim
  · rename_i caller command mark sent answer written
    obtain ⟨⟨state, asked, given⟩, ⟨silent, early, taken, rest, some, chunks, coming, framer⟩ | answered⟩ :=
      settled
    · have isWhole := punctual.able.whole state asked
      rw [← given] at isWhole
      -- The answer is the only delivery.
      rw [coming, List.length_singleton, Nat.lt_one_iff] at inside
      subst inside
      match rest, some with
      | [chunk], _ =>
          have delivered : bench.deliver 0 =
              onStation (Station.receive chunk) { bench with deliveries := [] } := by
            unfold Bench.deliver
            rw [coming]
            rfl
          rw [delivered]
          exact punctual.received [] chunk written (Or.inr (hasAnswer_receive silent isWhole chunks framer))
      | chunk :: next :: more, _ =>
          have delivered : bench.deliver 0 = onStation (Station.receive chunk)
              { bench with deliveries := [⟨sent + bench.pace.latency, next :: more⟩] } := by
            unfold Bench.deliver
            rw [coming]
            rfl
          rw [delivered]
          exact punctual.received _ chunk written
            (Or.inl (expects_receive silent early isWhole (List.cons_ne_nil _ _) chunks framer))
    · exact (nothing answered.toIsQuiet).elim

section

variable {start : Link} (recorded : bench.IsRecorded start)
  (written : Journal.phase bench.journal = .written caller command mark sent answer)

include recorded written

/-- An exchange ends with a line of the answer. -/
theorem takeLine (punctual : bench.IsPunctual inTime limit) {line : QueuedLine}
    {others : List QueuedLine} (first : bench.station.link.queue.first? = some (line, others)) :
    ((bench.onLink Link.empty).concluded caller command (.ok line)).IsPunctual inTime limit := by
  have member := recorded.text_mem_fresh written (ReplyQueue.mem_of_first? first)
  have answered := punctual.answer_of_fresh written (List.ne_nil_of_mem member)
  rw [answered.fresh] at member
  exact punctual.concluded written answered (Or.inl ⟨line, rfl, member⟩) ⟨rfl, rfl, rfl, rfl, rfl⟩ rfl
    rfl rfl

/-- When a line has come in, it is in the queue. -/
theorem first?_ne_none (punctual : bench.IsPunctual inTime limit)
    (woken : bench.station.link.isWoken = true) : bench.station.link.queue.first? ≠ none := by
  intro empty
  have fresh := (recorded.isWoken_iff written).mp woken
  have answered := punctual.answer_of_fresh written fresh
  rw [answered.fresh] at fresh
  rcases answered.queued with none | queued
  · exact absurd none fresh
  · exact absurd (ReplyQueue.first?_eq_none_iff.mp empty) queued

/-- If answers come in time, an exchange times out only for want of a line. -/
theorem timeOut (punctual : bench.IsPunctual inTime limit) (patient : inTime)
    (asleep : bench.station.link.isWoken = false) (due : sent + start.replyBound ≤ bench.clock) :
    ((bench.onLink Link.countReplyTimeout).concluded caller command
      (.error (.replyTimedOut command))).IsPunctual inTime limit := by
  have answered := punctual.answer_of_due written patient (by
    rw [recorded.replyBound]
    exact due)
  have none : Journal.fresh bench.journal = [] := by
    apply Classical.byContradiction
    intro fresh
    have woken := (recorded.isWoken_iff written).mpr fresh
    rw [asleep] at woken
    contradiction
  rw [answered.fresh] at none
  exact punctual.concluded written answered (Or.inr ⟨rfl, none⟩) ⟨rfl, rfl, rfl, rfl, rfl⟩ rfl rfl rfl

end

/-- Time passes, but not beyond what is due. -/
theorem elapse (punctual : bench.IsPunctual inTime limit) {time : Nat}
    (least : ∀ delivery ∈ bench.deliveries, time ≤ delivery.due) :
    (bench.onStation fun station => { station with clock := time }).IsPunctual inTime limit := by
  have same : (bench.onStation fun station => { station with clock := time }).Resembles bench :=
    ⟨rfl, rfl, rfl, rfl, rfl⟩
  refine ⟨same.answersWhole punctual.able, ?_, punctual.answered, punctual.passive⟩
  cases phase : Journal.phase bench.journal with
  | idle =>
      have quiet := punctual.quiet_of_idle phase
      exact isSettled_of_idle phase ⟨quiet.deliveries, quiet.framer⟩
  | begun caller command mark =>
      obtain ⟨quiet, silent⟩ := punctual.quiet_of_begun phase
      exact isSettled_of_begun phase ⟨quiet.deliveries, quiet.framer⟩ silent
  | written caller command mark sent answer =>
      obtain ⟨given, way⟩ := punctual.way_of_written phase
      refine isSettled_of_written phase given ?_
      rcases way with ⟨silent, early, taken, rest, some, chunks, coming, framer⟩ | answered
      · left
        refine ⟨silent, ?_, taken, rest, some, chunks, coming, framer⟩
        have due : (⟨sent + bench.pace.latency, rest⟩ : Delivery) ∈ bench.deliveries := by
          rw [coming]
          exact List.mem_singleton.mpr rfl
        exact least _ due
      · right
        exact ⟨⟨answered.deliveries, answered.framer⟩, answered.fresh, answered.queued⟩

end IsPunctual

end

end Bench

namespace Traffic

variable {α σ : Type}

/-- An exchange of a caller has timed out. -/
def HasTimedOut (traffic : Traffic α σ) : Prop :=
  ∃ index command, index < traffic.callers.length ∧
    (command, .error (.replyTimedOut command)) ∈ Journal.outcomes index traffic.journal

/-- When a caller gives up, its exchange has timed out. -/
theorem hasTimedOut_of_timeOut {before : Traffic α σ} {index : Nat} {caller : Caller α}
    (here : before.callers[index]? = some caller) (next : Caller α) {command : String} :
    HasTimedOut ⟨(before.bench.onLink Link.countReplyTimeout).concluded index command
      (.error (.replyTimedOut command)), before.callers.set index next⟩ := by
  refine ⟨index, command, ?_, ?_⟩
  · rw [List.length_set]
    exact (List.getElem?_eq_some_iff.mp here).1
  · have told : Journal.outcomes index ((before.bench.onLink Link.countReplyTimeout).concluded index
        command (.error (.replyTimedOut command))).journal =
      Journal.outcomes index before.bench.journal ++ [(command, .error (.replyTimedOut command))] :=
      Journal.collect_cons_some _ (Event.outcome?_own _ _ _)
    have member := List.mem_append_right (Journal.outcomes index before.bench.journal)
      (List.mem_singleton_self (command, Except.error (Fault.replyTimedOut command)))
    rw [← told] at member
    exact member

/-- The far end is punctual, and no write that goes on is going to fail. -/
structure IsPunctual (inTime : Prop) (limit : Nat) (traffic : Traffic α σ) : Prop where
  bench : traffic.bench.IsPunctual inTime limit
  writing : ∀ (index finish : Nat) (command : String) (result : Except Fault Unit)
    (next : Except Fault String → Routine α),
    traffic.callers[index]? = some (.writing command finish result next) → result = .ok ()

namespace IsPunctual

variable {inTime : Prop} {limit : Nat} {before after : Traffic α σ} {start : Link}
  {refusals cycles : Prop} {routines : List (Routine α)}

/-- What is left to show when a caller has advanced. -/
theorem set {index : Nat} {next : Caller α} {bench : Bench σ} (punctual : before.IsPunctual inTime limit)
    (kept : bench.IsPunctual inTime limit)
    (writing : ∀ command finish result follow,
      next = .writing command finish result follow → result = .ok ()) :
    IsPunctual inTime limit ⟨bench, before.callers.set index next⟩ where
  bench := kept
  writing := by
    intro other finish command result follow there
    rw [List.getElem?_set] at there
    split at there
    · split at there
      · exact writing command finish result follow (Option.some.inj there)
      · contradiction
    · exact punctual.writing other finish command result follow there

/-- Callers that only exchange commands leave the far end punctual, as long as answers come in time or no
exchange times out. -/
theorem advance (punctual : before.IsPunctual inTime limit) (regular : before.IsRegular start)
    (told : before.IsTold refusals routines)
    (only : ∀ routine ∈ routines, routine.Only (fun _ => False) cycles) {index : Nat}
    {caller next : Caller α} {bench : Bench σ} (here : before.callers[index]? = some caller)
    (advance : Advance index before.bench caller bench next)
    (patient : inTime ∨ ¬ HasTimedOut ⟨bench, before.callers.set index next⟩) :
    IsPunctual inTime limit ⟨bench, before.callers.set index next⟩ := by
  obtain ⟨rest, stands, restricted⟩ := told.only only here
  have calm := punctual.bench
  -- All that a caller does outside of its exchange leaves the line alone.
  have outside {after : Bench σ} (kept : after.IsPunctual inTime limit)
      (leaves : ∀ command finish result follow, next ≠ .writing command finish result follow) :
      IsPunctual inTime limit ⟨after, before.callers.set index next⟩ :=
    punctual.set kept fun command finish result follow same =>
      absurd same (leaves command finish result follow)
  cases advance with
  | finish => exact outside calm fun _ _ _ _ => by simp
  | look => exact outside calm fun _ _ _ _ => by simp
  | act action follow =>
      cases stands
      exact restricted.1.elim
  | refuse => exact outside calm fun _ _ _ _ => by simp
  | join => exact outside (calm.keep rfl rfl rfl rfl) fun _ _ _ _ => by simp
  | start first course =>
      apply punctual.set (calm.started (regular.idle here first) index _)
      intro command finish result follow same
      cases same
      obtain ⟨time, ends⟩ := calm.able.working.write_eq before.bench.clock
      rw [course] at ends
      cases ends
      rfl
  | failAtOnce first course =>
      obtain ⟨time, ends⟩ := calm.able.working.write_eq before.bench.clock
      rw [course] at ends
      contradiction
  | write due =>
      obtain ⟨mark, begun⟩ := regular.stands index _ here
      exact outside (calm.transfer begun) fun _ _ _ _ => by simp
  | failLate due =>
      have well := punctual.writing index _ _ _ _ here
      contradiction
  | takeLine due first =>
      obtain ⟨mark, sent, answer, written, rfl⟩ := regular.stands index _ here
      exact outside (calm.takeLine regular.recorded written first) fun _ _ _ _ => by simp
  | wakeInVain empty woken =>
      obtain ⟨mark, sent, answer, written, _⟩ := regular.stands index _ here
      exact absurd empty (calm.first?_ne_none regular.recorded written woken)
  | timeOut empty asleep due =>
      obtain ⟨mark, sent, answer, written, rfl⟩ := regular.stands index _ here
      have patient := patient.resolve_right (not_not_intro (hasTimedOut_of_timeOut here _))
      exact outside (calm.timeOut regular.recorded written patient asleep due) fun _ _ _ _ => by simp
  | failTransmission course =>
      cases stands
      exact restricted.elim
  | startTransmission course =>
      cases stands
      exact restricted.elim
  | endTransmission due =>
      obtain ⟨bound, rfl⟩ := stands
      exact restricted.elim
  | skip => exact outside calm fun _ _ _ _ => by simp
  | sleep => exact outside calm fun _ _ _ _ => by simp
  | wake => exact outside calm fun _ _ _ _ => by simp
  | rest => exact outside calm fun _ _ _ _ => by simp
  | enlist => exact outside (calm.keep rfl rfl rfl rfl) fun _ _ _ _ => by simp
  | claim first =>
      have same : (before.bench.record (.claimed index)).Resembles before.bench :=
        ⟨rfl, rfl, rfl, rfl, rfl⟩
      exact outside (calm.aside same rfl rfl rfl rfl rfl rfl rfl) fun _ _ _ _ => by simp
  | release follow =>
      have same : (Bench.record (.released index)
          { before.bench with cycleLine := before.bench.cycleLine.tail }).Resembles before.bench :=
        ⟨rfl, rfl, rfl, rfl, rfl⟩
      exact outside (calm.aside same rfl rfl rfl rfl rfl rfl rfl) fun _ _ _ _ => by simp

theorem beat (punctual : before.IsPunctual inTime limit) (regular : before.IsRegular start)
    (told : before.IsTold refusals routines)
    (only : ∀ routine ∈ routines, routine.Only (fun _ => False) cycles)
    (beat : before.Beat after) (patient : inTime ∨ ¬ after.HasTimedOut) :
    after.IsPunctual inTime limit := by
  cases beat with
  | advance here advance => exact punctual.advance regular told only here advance patient
  | deliver index possible => exact ⟨punctual.bench.deliver possible, punctual.writing⟩
  | tick possible =>
      have same : (before.bench.onStation Station.tick).Resembles before.bench :=
        ⟨rfl, rfl, rfl, rfl, rfl⟩
      exact ⟨punctual.bench.aside same rfl rfl rfl rfl rfl rfl rfl, punctual.writing⟩
  | elapse possible =>
      obtain ⟨time, made, _, _, least⟩ := clock_elapse possible
      rw [made]
      refine ⟨punctual.bench.elapse ?_, punctual.writing⟩
      intro delivery coming
      exact least delivery.due (mem_deadlines.mpr (Or.inr (Or.inl ⟨delivery, coming, rfl⟩)))

theorem of_fresh {first : Bench σ} (fresh : first.IsFresh) (able : first.AnswersWhole inTime limit)
    (quiet : first.IsQuiet limit) (routines : List (Routine α)) :
    (Traffic.start first routines).IsPunctual inTime limit := by
  have journal : first.journal = [] := fresh.journal
  refine ⟨⟨able, ?_, ?_, ?_⟩, ?_⟩
  · apply Bench.isSettled_of_idle _ quiet
    rw [journal]
    rfl
  · change Journal.Every _ first.journal
    rw [journal]
    trivial
  · change ∀ entry ∈ first.journal, _
    rw [journal]
    intro entry member
    contradiction
  · intro index finish command result next here
    obtain ⟨routine, _, same⟩ := ready_of_start here
    contradiction

end IsPunctual

/-- A far end that answers in time is punctual in every run of callers that only exchange commands. No
command is refused. -/
theorem Reaches.punctual {limit : Nat} {cycles : Prop} {first : Bench σ} (fresh : first.IsFresh)
    (able : first.AnswersWhole True limit) (quiet : first.IsQuiet limit) {routines : List (Routine α)}
    (only : ∀ routine ∈ routines, routine.Only (fun _ => False) cycles) {last : Traffic α σ}
    (reached : (Traffic.start first routines).Reaches last) :
    last.IsPunctual True limit ∧ last.IsTold False routines := by
  have known := reached.invariant
    (fun traffic => traffic.IsRegular first.station.link ∧ traffic.IsTold False routines ∧
      traffic.IsPunctual True limit) ?_ ?_
  · exact ⟨known.2.2, known.2.1⟩
  · exact ⟨.of_fresh fresh routines, .of_fresh False fresh routines, .of_fresh fresh able quiet routines⟩
  · rintro before after beat ⟨regular, told, punctual⟩
    refine ⟨regular.beat beat, told.beat beat ?_,
      punctual.beat regular told only beat (Or.inl trivial)⟩
    intro closed
    rw [Bench.isOpen, punctual.bench.able.working.isOpen] at closed
    contradiction

/-- What callers have been told stays so. -/
theorem HasTimedOut.beat {refusals : Prop} {routines : List (Routine α)} {before after : Traffic α σ}
    (timedOut : before.HasTimedOut) (told : before.IsTold refusals routines) (beat : before.Beat after)
    (possible : before.bench.isOpen = false → refusals) : after.HasTimedOut := by
  obtain ⟨number, command, inside, member⟩ := timedOut
  -- Only the caller that advances is told something, and that comes later.
  have unchanged (bench : Bench σ) (same : Journal.outcomes number bench.journal =
      Journal.outcomes number before.bench.journal) : HasTimedOut ⟨bench, before.callers⟩ := by
    refine ⟨number, command, inside, ?_⟩
    change _ ∈ Journal.outcomes number bench.journal
    rw [same]
    exact member
  cases beat with
  | @advance index caller next bench here advance =>
      refine ⟨number, command, ?_, ?_⟩
      · rw [List.length_set]
        exact inside
      · change _ ∈ Journal.outcomes number bench.journal
        by_cases same : number = index
        · subst same
          obtain ⟨routine, rest, found, leads, stands⟩ := told number caller here
          obtain ⟨items, later, _, _, recorded⟩ := advance.leads possible stands
          rw [recorded]
          exact List.mem_append_left _ member
        · rw [advance.outcomes_other same]
          exact member
  | deliver index possible => exact unchanged _ (Bench.collect_deliver (fun _ => rfl) index before.bench)
  | tick possible => exact unchanged _ (Journal.collect_cons_none _ rfl)
  | elapse possible => exact unchanged _ rfl

/-- Whenever answers come in, the far end is punctual until an exchange times out. -/
theorem Reaches.punctual_of_not_hasTimedOut {limit : Nat} {cycles : Prop} {first : Bench σ}
    (fresh : first.IsFresh) (able : first.AnswersWhole False limit) (quiet : first.IsQuiet limit)
    {routines : List (Routine α)}
    (only : ∀ routine ∈ routines, routine.Only (fun _ => False) cycles) {last : Traffic α σ}
    (reached : (Traffic.start first routines).Reaches last) (timely : ¬ last.HasTimedOut) :
    last.IsPunctual False limit := by
  have known := reached.invariant
    (fun traffic => traffic.IsRegular first.station.link ∧ traffic.IsTold True routines ∧
      (traffic.HasTimedOut ∨ traffic.IsPunctual False limit)) ?_ ?_
  · exact known.2.2.resolve_left timely
  · exact ⟨.of_fresh fresh routines, .of_fresh True fresh routines,
      Or.inr (.of_fresh fresh able quiet routines)⟩
  · rintro before after beat ⟨regular, told, way⟩
    refine ⟨regular.beat beat, told.beat beat fun _ => trivial, ?_⟩
    rcases way with timedOut | punctual
    · exact Or.inl (timedOut.beat told beat fun _ => trivial)
    · by_cases timedOut : after.HasTimedOut
      · exact Or.inl timedOut
      · exact Or.inr (punctual.beat regular told only beat (Or.inr timedOut))

end Traffic

end DelayGenerator
