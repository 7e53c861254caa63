/-
This file shows what the reply to a command owes to what has come in before it. Complete lines are
discarded, but the answer is joined to a line that has been left unfinished.
-/

import DelayGenerator.Proofs.Bench.Outcome
import DelayGenerator.Proofs.Operation.Commit

namespace DelayGenerator

namespace Framer

theorem joined?_eq_some_iff {framer : Framer} {text : String} :
    framer.joined? text = some text ↔ framer = empty framer.limit ∧ text.length ≤ framer.limit := by
  obtain ⟨limit, held, skipping⟩ := framer
  constructor
  · intro same
    unfold joined? at same
    split at same
    · contradiction
    · rename_i fits
      obtain ⟨reads, short⟩ := not_or.mp fits
      have characters := congrArg String.toList (Option.some.inj same)
      rw [String.toList_ofList] at characters
      have nothing : held = [] := List.append_left_eq_self.mp characters
      have takes : skipping = false := Bool.eq_false_iff.mpr reads
      subst nothing takes
      exact ⟨rfl, by simpa using short⟩
  · rintro ⟨same, short⟩
    rw [same]
    exact joined?_empty short

/-- What an exchange ends with that a line answers, if only this line comes in. -/
def outcome (framer : Framer) (command line : String) : Except Fault String :=
  match framer.joined? line with
  | some text => .ok text
  | none => .error (.replyTimedOut command)

theorem outcome_eq_ok_iff {framer : Framer} {command line : String} (short : line.length ≤ framer.limit) :
    framer.outcome command line = .ok line ↔ framer = empty framer.limit := by
  have joined := @joined?_eq_some_iff framer line
  unfold outcome
  cases found : framer.joined? line with
  | none =>
      rw [found] at joined
      simpa [short] using joined
  | some text =>
      rw [found] at joined
      simpa [short] using joined

end Framer

namespace Routine

/-- Bytes come in, and some time later a command is sent. -/
def sendAfter (input : List UInt8) (duration : Nat) (command : String) : Routine (Except Fault String) :=
  .act (.receive input) (.pause duration (.send command))

theorem isCyclic_send {stage : CycleStage} (command : String) (free : stage ≠ .inside) :
    (send command).IsCyclic True True (· ≠ .inside) stage := ⟨Or.inr trivial, fun _ => free⟩

theorem isCyclic_sendAfter (input : List UInt8) (duration : Nat) (command : String) :
    (sendAfter input duration command).IsCyclic True True (· ≠ .inside) .before :=
  ⟨fun _ same => by contradiction, isCyclic_send command (by decide)⟩

end Routine

namespace Bench

variable {α σ : Type} {expected : Frame σ} {held : Framer} {limit : Nat}

/-- What comes in unasked leaves its traces in the framer only, as far as the next exchange is concerned. -/
theorem IsIdle.perform_receive {bench : Bench σ} (idle : bench.IsIdle expected held) (bytes : List UInt8) :
    (bench.onStation (Station.perform 0 (.receive bytes))).IsIdle expected (held.feed bytes).1 where
  frame := by
    have received := bench.frame_receive bench.deliveries bytes
    have did := frame_record (bench.onStation (Station.receive bytes))
      (rfl : (Event.did 0 (.receive bytes)).written? = none)
    exact (did.trans received).trans idle.frame
  framer := by
    change (bench.station.link.framer.feed bytes).1 = _
    rw [idle.framer]
  deliveries := idle.deliveries
  sendLine := idle.sendLine

theorem Secures.receive {after : Bench σ → Prop} {bytes : List UInt8} {routine : Routine α} {value : α}
    (later : Secures (IsIdle expected (held.feed bytes).1) after routine value) :
    Secures (IsIdle expected held) after (.act (.receive bytes) routine) value :=
  later.of_run fun _ idle => ⟨_, idle.perform_receive bytes, fun _ _ => rfl⟩

/-- An exchange that one line answers ends with what has been held and this line. -/
theorem secures_send {command line : String} (prompt : expected.IsPrompt)
    (room : ([] : List String).length < expected.room)
    (bounded : held.IsBounded limit) (answer : expected.answer (Text.stripLineEnd command) = [line])
    (printable : Text.IsPrintable line) :
    Secures (IsIdle expected held) (IsIdle (expected.taken (Text.stripLineEnd command)) (.empty limit))
      (.send command) (held.outcome (Text.stripLineEnd command) line) := by
  obtain ⟨rfl, within⟩ := bounded
  have fed : held.feed (Delivery.payload (expected.answer (Text.stripLineEnd command))) =
      (.empty held.limit, (held.joined? line).toList) := by
    have payload : Delivery.payload [line] = Text.utf8 line ++ [0x0D, Framer.newline] := List.append_nil _
    rw [answer, payload]
    exact Framer.feed_line_of_isBounded within printable
  have reply : expected.reply (Text.stripLineEnd command) (held.joined? line).toList =
      held.outcome (Text.stripLineEnd command) line := by
    unfold Framer.outcome
    cases held.joined? line with
    | none => rfl
    | some text => exact Frame.reply_cons room _
  have whole : Delivery.ComesWhole held expected.pace.chunkSize
      (expected.answer (Text.stripLineEnd command)) := by
    rw [answer]
    exact Delivery.comesWhole_line held printable _
  refine .ask prompt whole ?_
  rw [fed, reply]
  exact .done _ _

end Bench

/-- The port is open and takes every command within the bound. No part of a line has come in, and nothing
has happened yet. -/
structure Station.IsListening (station : Station) : Prop where
  journal : station.journal = []
  isOpen : station.port.isOpen = true
  succeeds : station.port.failsWrites = false
  stays : station.port.dropsOnWrite = false
  inTime : ∃ duration, station.port.writeTime = some duration ∧ duration ≤ station.link.writeBound
  steady : station.ticker.IsSteady
  framer : station.link.framer = .empty station.link.framer.limit

namespace Station.IsListening

variable {α σ : Type} {station : Station} {farEnd : FarEnd σ} {pace : Pace}

theorem isIdle (listening : station.IsListening) (farEnd : FarEnd σ) (pace : Pace) :
    (Bench.facing station farEnd pace).IsIdle (Bench.facing station farEnd pace).frame
      (.empty station.link.framer.limit) := ⟨rfl, listening.framer, rfl, rfl⟩

theorem isPrompt (listening : station.IsListening) (farEnd : FarEnd σ)
    (inTime : pace.latency < station.link.replyBound) :
    (Bench.facing station farEnd pace).frame.IsPrompt :=
  ⟨listening.isOpen, listening.succeeds, listening.stays, listening.inTime, inTime⟩

/-- What is certain of an idle bench is what the routine gives at the station. -/
theorem gives (listening : station.IsListening) {after : Bench σ → Prop} {routine : Routine α} {value : α}
    (secures : Bench.Secures (Bench.IsIdle (Bench.facing station farEnd pace).frame
      (.empty station.link.framer.limit)) after routine value)
    (lasting : Bench.IsLasting after) (cyclic : routine.IsCyclic True True (· ≠ .inside) .before) :
    (Bench.facing station farEnd pace).Gives routine value :=
  secures.gives (Bench.isLasting_isIdle _ _) lasting (listening.isIdle farEnd pace) ⟨listening.journal, rfl⟩
    rfl listening.steady cyclic

/-- The reply to a command is the answer to it if nothing has come in before. Whatever has come in, and
however long ago, the reply is the answer joined to the line that has been left unfinished; so it is the
answer exactly if every printable byte has been followed by a newline. -/
theorem repliesAfterInput (listening : station.IsListening) (inTime : pace.latency < station.link.replyBound)
    {command line : String} (answer : (farEnd.respond farEnd.state (Text.stripLineEnd command)).2 = [line])
    (printable : Text.IsPrintable line) (short : line.length ≤ station.link.framer.limit) :
    (Bench.facing station farEnd pace).Gives (.send command) (.ok line) ∧
      ∀ (input : List UInt8) (duration : Nat),
        (Bench.facing station farEnd pace).Gives (.sendAfter input duration command)
          (((Framer.empty station.link.framer.limit).feed input).1.outcome (Text.stripLineEnd command) line) ∧
        ((Bench.facing station farEnd pace).Gives (.sendAfter input duration command) (.ok line) ↔
          Framer.EndsLines input) := by
  have room : ([] : List String).length < (Bench.facing station farEnd pace).frame.room :=
    station.link.queue.room_pos
  have sends {held : Framer} (bounded : held.IsBounded station.link.framer.limit) :=
    Bench.secures_send (listening.isPrompt farEnd inTime) room bounded answer printable
  constructor
  · have fresh : (Framer.empty station.link.framer.limit).outcome (Text.stripLineEnd command) line =
        .ok line := (@Framer.outcome_eq_ok_iff (.empty station.link.framer.limit) _ line short).mpr rfl
    have first := sends (Framer.isBounded_empty station.link.framer.limit)
    rw [fresh] at first
    exact listening.gives first (Bench.isLasting_isIdle _ _) (Routine.isCyclic_send command (by decide))
  · intro input duration
    have bounded := ((Framer.isBounded_empty station.link.framer.limit).feed input).1
    have later := (sends bounded).pause (Bench.isLasting_isIdle _ _) duration
    have given := listening.gives later.receive (Bench.isLasting_isIdle _ _)
      (Routine.isCyclic_sendAfter input duration command)
    refine ⟨given, ?_⟩
    have rests := @Framer.feed_eq_empty_iff (.empty station.link.framer.limit) input
    have whole := @Framer.outcome_eq_ok_iff ((Framer.empty station.link.framer.limit).feed input).1
      (Text.stripLineEnd command) line (by rw [bounded.limited]; exact short)
    rw [bounded.limited] at whole
    constructor
    · intro same
      exact (rests.mp (whole.mp (given.eq same).symm)).1
    · intro ends
      rw [whole.mpr (rests.mpr ⟨ends, Or.inr rfl⟩)] at given
      exact given

/-- Three letters that have come in without the end of their line become the beginning of the next reply. -/
theorem repliesAfterInput_partial :
    let station := Station.idle Settings.defaults { Port.ready with isOpen := true }
    let bench := Bench.facing station (⟨(), fun _ _ => ((), ["ok"])⟩ : FarEnd Unit) ⟨100, some 3⟩
    let input := Text.utf8 "gar"
    station.IsListening ∧ bench.pace.latency < station.link.replyBound ∧
      bench.Gives (.send "A") (.ok "ok") ∧ bench.Gives (.sendAfter input 5 "A") (.ok "garok") ∧
      ¬ bench.Gives (.sendAfter input 5 "A") (.ok "ok") := by
  intro station bench input
  have listening : station.IsListening :=
    ⟨rfl, rfl, rfl, rfl, ⟨0, rfl, by decide⟩, Ticker.isSteady_start _ _, rfl⟩
  have inTime : bench.pace.latency < station.link.replyBound := by decide
  obtain ⟨alone, after⟩ := @repliesAfterInput Unit station bench.farEnd bench.pace listening inTime "A" "ok" rfl
    (by decide) (by decide)
  obtain ⟨joined, same⟩ := after input 5
  refine ⟨listening, inTime, alone, joined, fun whole => ?_⟩
  have ends := same.mp whole
  revert ends
  decide

end Station.IsListening

end DelayGenerator
