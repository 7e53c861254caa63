/-
This file follows an exchange of a caller that is alone, from the moment it begins up to the moment it ends,
whatever happens meanwhile. A part of a line may have come in before, and the answer may have any number of
lines, as long as none of them is complete before its last chunk has come in.
-/

import DelayGenerator.Proofs.Bench.Inevitable
import DelayGenerator.Proofs.Bench.Punctual
import DelayGenerator.Proofs.Bench.Service

namespace DelayGenerator

namespace ReplyQueue

/-- A queue that has been empty begins with the oldest of the lines for which it has room. -/
theorem first?_of_texts {queue : ReplyQueue} {texts : List String}
    (kept : queue.lines.map QueuedLine.text = texts.drop (texts.length - queue.room)) (some : texts ≠ []) :
    ∃ line others, queue.first? = .some (line, others) ∧
      texts[texts.length - queue.room]? = .some line.text := by
  have head : (queue.lines.map QueuedLine.text).head? = texts[texts.length - queue.room]? := by
    rw [kept, List.head?_drop]
  have inside : texts.length - queue.room < texts.length :=
    Nat.sub_lt (List.length_pos_iff.mpr some) queue.room_pos
  cases lines : queue.lines with
  | nil =>
      rw [lines, List.getElem?_eq_getElem inside] at head
      contradiction
  | cons line others =>
      rw [lines] at head
      exact ⟨line, others, by rw [first?, lines], head.symm⟩

end ReplyQueue

namespace Bench

variable {α σ : Type}

/-- What matters of the bench to the only caller. Apart from the far end, its exchanges leave all of this as
it is. -/
structure Frame (σ : Type) where
  port : Port
  writeBound : Nat
  replyBound : Nat
  /-- How many lines the queue has room for. -/
  room : Nat
  connection : Connection
  cache : Snapshot
  pace : Pace
  farEnd : FarEnd σ
  cycleLine : List Nat
  /-- The commands that the far end has taken. -/
  commands : List String

namespace Frame

/-- The far end has taken one more command. -/
def taken (command : String) (frame : Frame σ) : Frame σ :=
  { frame with farEnd := frame.farEnd.taken command, commands := frame.commands ++ [command] }

/-- How the far end answers a command. -/
def answer (frame : Frame σ) (command : String) : List String :=
  (frame.farEnd.respond frame.farEnd.state command).2

/-- The port takes every command, and answers come in time. -/
structure IsPrompt (frame : Frame σ) : Prop where
  isOpen : frame.port.isOpen = true
  succeeds : frame.port.failsWrites = false
  stays : frame.port.dropsOnWrite = false
  writes : ∃ duration, frame.port.writeTime = some duration ∧ duration ≤ frame.writeBound
  inTime : frame.pace.latency < frame.replyBound

theorem IsPrompt.taken {frame : Frame σ} (prompt : frame.IsPrompt) (command : String) :
    (frame.taken command).IsPrompt :=
  ⟨prompt.isOpen, prompt.succeeds, prompt.stays, prompt.writes, prompt.inTime⟩

/-- What an exchange ends with when lines have come in at once: the oldest of those for which there is
room. -/
def reply (frame : Frame σ) (command : String) (lines : List String) : Except Fault String :=
  match lines[lines.length - frame.room]? with
  | some line => .ok line
  | none => .error (.replyTimedOut command)

/-- If there is room for all lines, the first one is the reply. -/
theorem reply_cons {frame : Frame σ} {line : String} {others : List String}
    (fits : others.length < frame.room) (command : String) :
    frame.reply command (line :: others) = .ok line := by
  have first : (line :: others).length - frame.room = 0 := Nat.sub_eq_zero_of_le fits
  rw [reply, first]
  rfl

end Frame

def frame (bench : Bench σ) : Frame σ where
  port := bench.station.port
  writeBound := bench.station.link.writeBound
  replyBound := bench.station.link.replyBound
  room := bench.station.link.queue.room
  connection := bench.station.connection
  cache := bench.station.cache
  pace := bench.pace
  farEnd := bench.farEnd
  cycleLine := bench.cycleLine
  commands := bench.commands

/-- What writes no command leaves the commands alone. -/
theorem commands_cons {bench after : Bench σ} {entry : Entry} (journal : after.journal = entry :: bench.journal)
    (silent : entry.event.written? = none) : after.commands = bench.commands := by
  rw [commands, commands, journal, Journal.collect_cons_none _ silent]

section

variable (bench : Bench σ)

theorem frame_record {event : Event} (silent : event.written? = none) :
    (bench.record event).frame = bench.frame := by
  have commands : (bench.record event).commands = bench.commands := commands_cons rfl silent
  rw [frame, commands]
  rfl

theorem frame_tick : (bench.onStation Station.tick).frame = bench.frame :=
  frame_record (bench.onStation fun station => { station with ticker := station.ticker.fire })
    (rfl : (Event.ticked (bench.station.ticker.tick bench.station.status)
      (bench.station.ticker.hearing bench.station.status)).written? = none)

theorem frame_receive (deliveries : List Delivery) (bytes : List UInt8) :
    (onStation (Station.receive bytes) { bench with deliveries := deliveries }).frame = bench.frame := by
  have room : (bench.station.link.queue.pushAll (bench.station.link.completed bytes)).room =
      bench.station.link.queue.room := ReplyQueue.room_pushAll _ _
  have received : (bench.onLink fun link => link.receive bytes).frame = bench.frame := by
    change { bench.frame with
      room := (bench.station.link.queue.pushAll (bench.station.link.completed bytes)).room } = bench.frame
    rw [room]
    rfl
  exact (frame_record (onLink (fun link => link.receive bytes) { bench with deliveries := deliveries })
    (rfl : (Event.received (bench.station.link.completed bytes)).written? = none)).trans received

theorem frame_concluded (command : String) (outcome : Except Fault QueuedLine) :
    (bench.concluded 0 command outcome).frame = bench.frame :=
  frame_record { bench with sendLine := bench.sendLine.tail }
    (rfl : (Event.ended 0 command outcome).written? = none)

theorem frame_transfer (command : String) :
    (bench.transfer 0 command).frame = bench.frame.taken command := by
  have writes : Journal.collect Event.written? (bench.transfer 0 command).journal =
      Journal.collect Event.written? bench.journal ++
        [(0, command, (bench.farEnd.respond bench.farEnd.state command).2)] :=
    Journal.collect_cons_some _ rfl
  have commands : (bench.transfer 0 command).commands = bench.commands ++ [command] := by
    rw [Bench.commands, writes, List.map_append]
    rfl
  rw [frame, commands]
  rfl

end

/-- Nobody exchanges a command, and nothing is on its way. -/
structure IsIdle (expected : Frame σ) (framer : Framer) (bench : Bench σ) : Prop where
  frame : bench.frame = expected
  framer : bench.station.link.framer = framer
  deliveries : bench.deliveries = []
  sendLine : bench.sendLine = []

/-- The only caller exchanges a command, and no line has come in yet. -/
structure IsEngaged (expected : Frame σ) (bench : Bench σ) : Prop where
  frame : bench.frame = expected
  sendLine : bench.sendLine = [0]
  empty : bench.station.link.queue.lines = []
  asleep : bench.station.link.isWoken = false

/-- What has come in of the answer completes no line, and the rest of it is on its way. -/
structure IsComing (expected : Frame σ) (held : Framer) (due : Nat) (lines : List String) (bench : Bench σ) :
    Prop extends bench.IsEngaged expected where
  coming : ∃ taken rest,
    Delivery.chunksOf expected.pace.chunkSize (Delivery.payload lines) = taken ++ rest ∧
      bench.deliveries = Delivery.behind due rest [] ∧ (rest ≠ [] → bench.clock ≤ due) ∧
      held.feed taken.flatten = (bench.station.link.framer, [])

/-- The whole answer has come in, and completes lines. -/
structure IsTold (expected : Frame σ) (held : Framer) (lines : List String) (bench : Bench σ) : Prop where
  frame : bench.frame = expected
  framer : bench.station.link.framer = (held.feed (Delivery.payload lines)).1
  deliveries : bench.deliveries = []
  sendLine : bench.sendLine = [0]
  woken : bench.station.link.isWoken = true
  complete : (held.feed (Delivery.payload lines)).2 ≠ []
  queued : bench.station.link.queue.lines.map QueuedLine.text =
    (held.feed (Delivery.payload lines)).2.drop
      ((held.feed (Delivery.payload lines)).2.length - bench.station.link.queue.room)

section

variable {expected : Frame σ} {held : Framer} {bench : Bench σ} {due : Nat} {lines : List String}
  {command : String}

theorem IsIdle.tick (idle : bench.IsIdle expected held) :
    (bench.onStation Station.tick).IsIdle expected held :=
  { idle with frame := bench.frame_tick.trans idle.frame }

theorem IsIdle.setClock (idle : bench.IsIdle expected held) (time : Nat) :
    (bench.onStation fun station => { station with clock := time }).IsIdle expected held :=
  { idle with frame := idle.frame }

theorem IsEngaged.tick (engaged : bench.IsEngaged expected) :
    (bench.onStation Station.tick).IsEngaged expected :=
  { engaged with frame := bench.frame_tick.trans engaged.frame }

theorem IsEngaged.setClock (engaged : bench.IsEngaged expected) (time : Nat) :
    (bench.onStation fun station => { station with clock := time }).IsEngaged expected :=
  { engaged with frame := engaged.frame }

theorem IsComing.tick (coming : bench.IsComing expected held due lines) :
    (bench.onStation Station.tick).IsComing expected held due lines :=
  { coming.toIsEngaged.tick with coming := coming.coming }

/-- The clock does not overtake what is on its way. -/
theorem IsComing.setClock (coming : bench.IsComing expected held due lines) {time : Nat}
    (least : ∀ delivery ∈ bench.deliveries, time ≤ delivery.due) :
    (bench.onStation fun station => { station with clock := time }).IsComing expected held due lines := by
  obtain ⟨taken, rest, chunks, deliveries, _, fed⟩ := coming.coming
  refine { coming.toIsEngaged.setClock time with coming := ⟨taken, rest, chunks, deliveries, ?_, fed⟩ }
  intro more
  refine least ⟨due, rest⟩ ?_
  simp [deliveries, Delivery.behind, more]

theorem IsTold.tick (told : bench.IsTold expected held lines) :
    (bench.onStation Station.tick).IsTold expected held lines :=
  { told with frame := bench.frame_tick.trans told.frame }

/-- The port takes a command as the frame says. -/
theorem IsIdle.isWorking (idle : bench.IsIdle expected held) (prompt : expected.IsPrompt) :
    bench.IsWorking := by
  obtain ⟨rfl, _, _, _⟩ := idle
  exact ⟨prompt.isOpen, prompt.succeeds, prompt.stays, prompt.writes⟩

/-- An exchange begins with an empty queue. What has been held of a line is still held. -/
theorem IsIdle.started (idle : bench.IsIdle expected held) (prompt : expected.IsPrompt) (command : String) :
    (({ bench with sendLine := [0] }).started 0 command).IsEngaged expected := by
  have commands : (({ bench with sendLine := [0] } : Bench σ).started 0 command).commands = bench.commands :=
    commands_cons rfl rfl
  have port : (({ bench with sendLine := [0] } : Bench σ).started 0 command).station.port =
      bench.station.port := (idle.isWorking prompt).port_touched
  have same : (({ bench with sendLine := [0] } : Bench σ).started 0 command).frame = bench.frame := by
    rw [Bench.frame, commands, port]
    rfl
  exact ⟨same.trans idle.frame, rfl, rfl, rfl⟩

/-- Once a command has been written, its answer is on its way. -/
theorem IsEngaged.transfer (engaged : bench.IsEngaged expected) (quiet : bench.deliveries = [])
    (framer : bench.station.link.framer = held) (command : String) :
    (bench.transfer 0 command).IsComing (expected.taken command) held (bench.clock + bench.pace.latency)
      (expected.answer command) := by
  obtain ⟨rfl, sendLine, empty, asleep⟩ := engaged
  have sets : (bench.transfer 0 command).deliveries =
      if (bench.frame.answer command).isEmpty then bench.deliveries
      else bench.deliveries ++ [⟨bench.clock + bench.pace.latency,
        Delivery.chunksOf bench.pace.chunkSize (Delivery.payload (bench.frame.answer command))⟩] := rfl
  refine ⟨⟨bench.frame_transfer command, sendLine, empty, asleep⟩, ?_⟩
  rw [quiet, List.nil_append] at sets
  by_cases silent : bench.frame.answer command = []
  · -- Without an answer nothing more comes.
    refine ⟨_, [], (List.append_nil _).symm, ?_, fun some => absurd rfl some, ?_⟩
    · rw [sets, silent]
      rfl
    · rw [Delivery.flattenChunksOf, silent, ← framer]
      rfl
  · refine ⟨[], _, rfl, ?_, fun _ => Nat.le_add_right _ _, by rw [← framer]; rfl⟩
    have some : (bench.frame.answer command).isEmpty = false := by simpa using silent
    have chunks : (Delivery.chunksOf bench.pace.chunkSize
        (Delivery.payload (bench.frame.answer command))).isEmpty = false := by
      simpa using Delivery.chunksOf_ne_nil _ (Delivery.payload_ne_nil silent)
    rw [sets, some]
    change _ = Delivery.behind _ (Delivery.chunksOf bench.pace.chunkSize _) []
    rw [Delivery.behind, chunks]

/-- With the last chunk the lines are there, if it completes any; before that, more of them is on its
way. -/
theorem IsComing.deliver (coming : bench.IsComing expected held due lines)
    (whole : Delivery.ComesWhole held expected.pace.chunkSize lines) {index : Nat}
    (possible : bench.canDeliver index = true) :
    (bench.deliver index).IsComing expected held due lines ∨
      (bench.deliver index).IsTold expected held lines := by
  obtain ⟨taken, rest, chunks, deliveries, early, fed⟩ := coming.coming
  have inside := lt_of_canDeliver possible
  rw [deliveries] at inside
  cases rest with
  | nil => contradiction
  | cons chunk others =>
      -- There is only one delivery.
      obtain rfl : index = 0 := Nat.lt_one_iff.mp inside
      have delivered := deliver_first deliveries
      have frame := (bench.frame_receive (Delivery.behind due others []) chunk).trans coming.frame
      have next : held.feed (taken ++ [chunk]).flatten = bench.station.link.framer.feed chunk := by
        rw [List.flatten_append, List.flatten_singleton, Framer.feedAppend, fed]
        rfl
      rw [delivered]
      by_cases none : (bench.station.link.framer.feed chunk).2 = []
      · refine Or.inl ⟨⟨frame, coming.sendLine, ?_, ?_⟩, taken ++ [chunk], others, ?_, rfl, ?_, ?_⟩
        · change (bench.station.link.queue.pushAll (bench.station.link.framer.feed chunk).2).lines = []
          rw [none]
          exact coming.empty
        · change (bench.station.link.isWoken || !(bench.station.link.framer.feed chunk).2.isEmpty) = false
          rw [none, coming.asleep]
          rfl
        · exact chunks.trans (List.append_cons _ _ _)
        · exact fun _ => early (List.cons_ne_nil _ _)
        · exact next.trans (Prod.ext rfl none)
      · -- Only the last chunk may complete lines.
        have last : others = [] := by
          refine Classical.byContradiction fun more => none ?_
          have silent := whole.lines_eq_nil chunks more
          rw [fed] at silent
          exact silent
        subst last
        have all := whole.feed_last chunks
        rw [fed] at all
        dsimp only at all
        refine Or.inr ⟨frame, congrArg Prod.fst all, rfl, coming.sendLine, ?_, ?_, ?_⟩
        · change (bench.station.link.isWoken || !(bench.station.link.framer.feed chunk).2.isEmpty) = true
          simpa using Or.inr none
        · rw [← all]
          exact none
        · have none : bench.station.link.queue.lines.length ≤ bench.station.link.queue.room := by
            rw [coming.empty]
            exact Nat.zero_le _
          have kept := ReplyQueue.texts_pushAll none (bench.station.link.framer.feed chunk).2
          rw [coming.empty, List.map_nil, List.nil_append, List.length_nil, Nat.zero_add] at kept
          change (bench.station.link.queue.pushAll (bench.station.link.framer.feed chunk).2).lines.map
            QueuedLine.text = List.drop (_ - (bench.station.link.queue.pushAll
              (bench.station.link.framer.feed chunk).2).room) _
          rw [kept, ReplyQueue.room_pushAll, all]

/-- An exchange for which lines have come in ends with the oldest that is left. -/
theorem IsTold.takeReply (told : bench.IsTold expected held lines) (command : String) :
    ∃ later : Bench σ, later.IsIdle expected (held.feed (Delivery.payload lines)).1 ∧
      bench.takeReply 0 command =
        (later, .ended (expected.reply command (held.feed (Delivery.payload lines)).2)) := by
  obtain ⟨rfl, framer, deliveries, sendLine, _, complete, queued⟩ := told
  obtain ⟨line, others, first, found⟩ := ReplyQueue.first?_of_texts queued complete
  refine ⟨(bench.onLink Link.empty).concluded 0 command (.ok line), ?_, ?_⟩
  · exact ⟨(bench.onLink Link.empty).frame_concluded command (.ok line), framer, deliveries,
      congrArg List.tail sendLine⟩
  · have outcome : bench.frame.reply command (held.feed (Delivery.payload lines)).2 = .ok line.text := by
      rw [Frame.reply]
      change (match (held.feed (Delivery.payload lines)).2[_ - bench.station.link.queue.room]? with
        | some line => _
        | none => _) = _
      rw [found]
    rw [outcome, Bench.takeReply, first]
    rfl

/-- An exchange for which nothing more can come in has been in vain. -/
theorem IsEngaged.takeReply (engaged : bench.IsEngaged expected) (quiet : bench.deliveries = [])
    (framer : bench.station.link.framer = held) (command : String) :
    ∃ later : Bench σ, later.IsIdle expected held ∧
      bench.takeReply 0 command = (later, .ended (.error (.replyTimedOut command))) := by
  obtain ⟨rfl, sendLine, empty, asleep⟩ := engaged
  refine ⟨(bench.onLink Link.countReplyTimeout).concluded 0 command (.error (.replyTimedOut command)), ?_, ?_⟩
  · exact ⟨(bench.onLink Link.countReplyTimeout).frame_concluded command _, framer, quiet,
      congrArg List.tail sendLine⟩
  · simp only [Bench.takeReply, ReplyQueue.first?, empty, asleep]
    rfl

/-- When the answer is overdue, all of it has come in. -/
theorem IsComing.feed_eq (coming : bench.IsComing expected held due lines) (late : due < bench.clock) :
    bench.deliveries = [] ∧ held.feed (Delivery.payload lines) = (bench.station.link.framer, []) := by
  obtain ⟨taken, rest, chunks, deliveries, early, fed⟩ := coming.coming
  have all : rest = [] := Classical.byContradiction fun more => Nat.not_lt_of_le (early more) late
  subst all
  have flat := Delivery.flattenChunksOf expected.pace.chunkSize (Delivery.payload lines)
  rw [chunks, List.append_nil] at flat
  rw [flat] at fed
  exact ⟨deliveries, fed⟩

/-- Once its command has been written, the caller waits for the answer, which comes in time. -/
theorem IsEngaged.listen (engaged : bench.IsEngaged expected) (prompt : expected.IsPrompt) (command : String) :
    (bench.transfer 0 command).listen 0 command =
      (bench.transfer 0 command, .awaiting (bench.clock + bench.station.link.replyBound)) := by
  obtain ⟨rfl, _, _, asleep⟩ := engaged
  have waits : bench.station.link.replyBound ≠ 0 := Nat.ne_of_gt (Nat.zero_lt_of_lt prompt.inTime)
  simp [Bench.listen, asleep, waits]

end

/-- How far the only caller has come with an exchange. -/
inductive Asking (expected : Frame σ) (held : Framer) (command : String) (lines : List String)
    (next : Except Fault String → Routine α) : Traffic α σ → Prop where
  | writing {bench : Bench σ} {finish : Nat} (engaged : bench.IsEngaged expected)
      (quiet : bench.deliveries = []) (framer : bench.station.link.framer = held) :
      Asking expected held command lines next (Traffic.alone (bench, .writing command finish (.ok ()) next))
  | coming {bench : Bench σ} {due deadline : Nat} (inTime : due < deadline)
      (coming : bench.IsComing (expected.taken command) held due lines) :
      Asking expected held command lines next (Traffic.alone (bench, .awaiting command deadline next))
  | told {bench : Bench σ} {deadline : Nat} (told : bench.IsTold (expected.taken command) held lines) :
      Asking expected held command lines next (Traffic.alone (bench, .awaiting command deadline next))
  | gone {bench : Bench σ} {last : Traffic α σ}
      (idle : bench.IsIdle (expected.taken command) (held.feed (Delivery.payload lines)).1)
      (runs : (Traffic.alone (Caller.run 0 (next (expected.reply command
        (held.feed (Delivery.payload lines)).2)) bench)).Reaches last) :
      Asking expected held command lines next last

section

variable {expected : Frame σ} {held : Framer} {bench : Bench σ} {before after : Traffic α σ}
  {command : String} {next : Except Fault String → Routine α}

/-- The command is written, and its answer sets out. -/
theorem IsEngaged.asking (engaged : bench.IsEngaged expected) (quiet : bench.deliveries = [])
    (framer : bench.station.link.framer = held) (prompt : expected.IsPrompt) :
    Asking expected held command (expected.answer command) next
      (Traffic.alone (Caller.follow 0 command next (bench.endWrite 0 command (.ok ())))) := by
  have coming := engaged.transfer quiet framer command
  have follows : bench.endWrite 0 command (.ok ()) =
      (bench.transfer 0 command, .awaiting (bench.clock + bench.station.link.replyBound)) :=
    engaged.listen prompt command
  rw [follows]
  refine .coming ?_ coming
  obtain ⟨rfl, _⟩ := engaged
  exact Nat.add_lt_add_left prompt.inTime _

/-- An exchange gets on, whatever happens. -/
theorem Asking.step (asking : Asking expected held command (expected.answer command) next before)
    (prompt : expected.IsPrompt)
    (whole : Delivery.ComesWhole held expected.pace.chunkSize (expected.answer command))
    (step : before.Step after) : Asking expected held command (expected.answer command) next after := by
  cases asking with
  | writing engaged quiet framer =>
      rcases Traffic.step_alone_cases step with rfl | ⟨index, possible, rfl⟩ | ⟨_, rfl⟩ | ⟨_, time, rfl, _⟩
      · exact .writing engaged.tick quiet framer
      · simp [canDeliver, quiet] at possible
      · exact engaged.asking quiet framer prompt
      · exact .writing (engaged.setClock time) quiet framer
  | coming inTime coming =>
      rcases Traffic.step_alone_cases step with
        rfl | ⟨index, possible, rfl⟩ | ⟨goesOn, rfl⟩ | ⟨_, time, rfl, least, _⟩
      · exact .coming inTime coming.tick
      · rcases coming.deliver whole possible with coming | told
        · exact .coming inTime coming
        · exact .told told
      · -- Nothing has woken the caller, so the deadline has come, and with it the whole answer.
        have come := goesOn
        simp only [Caller.canGoOn, coming.asleep, Bool.false_or, decide_eq_true_eq] at come
        obtain ⟨quiet, fed⟩ := coming.feed_eq (Nat.lt_of_lt_of_le inTime come)
        obtain ⟨later, idle, takes⟩ := coming.toIsEngaged.takeReply quiet rfl command
        refine .gone (by rw [fed]; exact idle) ?_
        rw [Caller.goOn, takes, fed]
        exact .start
      · exact .coming inTime (coming.setClock least)
  | told told =>
      rcases Traffic.step_alone_cases step with rfl | ⟨index, possible, rfl⟩ | ⟨_, rfl⟩ | ⟨stuck, _⟩
      · exact .told told.tick
      · simp [canDeliver, told.deliveries] at possible
      · obtain ⟨later, idle, takes⟩ := told.takeReply command
        refine .gone idle ?_
        rw [Caller.goOn, takes]
        exact .start
      · simp [Caller.canGoOn, told.woken] at stuck
  | gone idle runs => exact .gone idle (.next runs step)

/-- The only caller asks, and its exchange is under way. -/
theorem IsIdle.asking (idle : bench.IsIdle expected held) (prompt : expected.IsPrompt) :
    Asking expected held (Text.stripLineEnd command) (expected.answer (Text.stripLineEnd command)) next
      (Traffic.alone (Caller.run 0 (.ask command next) bench)) := by
  have working := idle.isWorking prompt
  have engaged := idle.started prompt (Text.stripLineEnd command)
  obtain ⟨finish, course⟩ := working.write_eq bench.clock
  have begins : ({ bench with sendLine := [0] } : Bench σ).begin 0 (Text.stripLineEnd command) =
      if finish ≤ bench.clock then
        (({ bench with sendLine := [0] } : Bench σ).started 0 (Text.stripLineEnd command)).endWrite 0
          (Text.stripLineEnd command) (.ok ())
      else (({ bench with sendLine := [0] } : Bench σ).started 0 (Text.stripLineEnd command),
        .writing finish (.ok ())) := by
    rw [begin_eq]
    split
    next fault failed => cases course.symm.trans failed
    next after result ends =>
      cases course.symm.trans ends
      rfl
  have runs : Caller.run 0 (.ask command next) bench =
      Caller.follow 0 (Text.stripLineEnd command) next
        (({ bench with sendLine := [0] } : Bench σ).begin 0 (Text.stripLineEnd command)) := by
    have isOpen : bench.isOpen = true := working.isOpen
    simp only [Caller.run, isOpen, idle.sendLine, Bool.not_true, Bool.false_eq_true, if_false,
      List.isEmpty_nil, if_true]
    generalize ({ bench with sendLine := [0] } : Bench σ).begin 0 (Text.stripLineEnd command) = begun
    obtain ⟨begun, stage⟩ := begun
    cases stage <;> rfl
  rw [runs, begins]
  split
  · exact engaged.asking idle.deliveries idle.framer prompt
  · exact .writing engaged idle.deliveries idle.framer

/-- Whatever happens meanwhile, an exchange ends with the oldest line that is left of the answer, joined to
what has been held before, or times out if no line is complete. -/
theorem IsIdle.answered {last : Traffic α σ} (idle : bench.IsIdle expected held) (prompt : expected.IsPrompt)
    (whole : Delivery.ComesWhole held expected.pace.chunkSize
      (expected.answer (Text.stripLineEnd command)))
    (reached : (Traffic.alone (Caller.run 0 (.ask command next) bench)).Reaches last)
    (finished : last.isFinished = true) :
    ∃ later : Bench σ,
      later.IsIdle (expected.taken (Text.stripLineEnd command))
        (held.feed (Delivery.payload (expected.answer (Text.stripLineEnd command)))).1 ∧
      (Traffic.alone (Caller.run 0 (next (expected.reply (Text.stripLineEnd command)
        (held.feed (Delivery.payload (expected.answer (Text.stripLineEnd command)))).2)) later)).Reaches
          last := by
  have asking : Asking expected held (Text.stripLineEnd command)
      (expected.answer (Text.stripLineEnd command)) next last := by
    clear finished
    induction reached with
    | start => exact idle.asking prompt
    | next _ step inductionHypothesis => exact inductionHypothesis.step prompt whole step
  cases asking with
  | writing => contradiction
  | coming => contradiction
  | told => contradiction
  | gone idle runs => exact ⟨_, idle, runs⟩

end

end Bench

end DelayGenerator
