/-
This file follows a caller that is alone with a far end that answers every command with one line in
time. Whatever happens meanwhile, every exchange ends with the answer, so that what a routine comes
to is certain.
-/

import DelayGenerator.Proofs.Bench.Outcome

namespace DelayGenerator

namespace Bench

variable {α β σ : Type}

/-- What matters of the bench between the exchanges of the only caller. -/
structure Scene (σ : Type) where
  state : σ
  cache : Snapshot
  cycleLine : List Nat
  /-- The commands that the far end has taken. -/
  commands : List String

namespace Scene

/-- The far end has taken one more command. -/
def taken (respond : σ → String → σ × List String) (command : String) (scene : Scene σ) : Scene σ :=
  { scene with
    state := (respond scene.state command).1
    commands := scene.commands ++ [command] }

end Scene

/-- The instrument is connected, the port takes every command, and answers come in time. -/
structure Shows (respond : σ → String → σ × List String) (scene : Scene σ) (bench : Bench σ) : Prop where
  working : bench.IsWorking
  connected : bench.station.connection.isOpen = true
  inTime : bench.pace.latency < bench.station.link.replyBound
  respond : bench.farEnd.respond = respond
  state : bench.farEnd.state = scene.state
  cache : bench.station.cache = scene.cache
  cycleLine : bench.cycleLine = scene.cycleLine
  commands : bench.commands = scene.commands

/-- Nobody exchanges a command, and nothing is on its way. -/
structure IsCalm (respond : σ → String → σ × List String) (limit : Nat) (scene : Scene σ) (bench : Bench σ) :
    Prop extends bench.Shows respond scene where
  quiet : bench.IsQuiet limit
  sendLine : bench.sendLine = []

section

variable {respond : σ → String → σ × List String} {scene : Scene σ} {bench after : Bench σ}
  {limit : Nat}

/-- Only what matters of the bench counts. -/
theorem Shows.keep (shows : bench.Shows respond scene) (port : after.station.port = bench.station.port)
    (writeBound : after.station.link.writeBound = bench.station.link.writeBound)
    (replyBound : after.station.link.replyBound = bench.station.link.replyBound)
    (connection : after.station.connection = bench.station.connection)
    (cache : after.station.cache = bench.station.cache) (pace : after.pace = bench.pace)
    (farEnd : after.farEnd = bench.farEnd) (cycleLine : after.cycleLine = bench.cycleLine)
    (commands : after.commands = bench.commands) : after.Shows respond scene where
  working := by
    obtain ⟨isOpen, succeeds, stays, inTime⟩ := shows.working
    constructor
    · rw [port]; exact isOpen
    · rw [port]; exact succeeds
    · rw [port]; exact stays
    · rw [port, writeBound]; exact inTime
  connected := by rw [connection]; exact shows.connected
  inTime := by rw [pace, replyBound]; exact shows.inTime
  respond := by rw [farEnd]; exact shows.respond
  state := by rw [farEnd]; exact shows.state
  cache := cache.trans shows.cache
  cycleLine := cycleLine.trans shows.cycleLine
  commands := commands.trans shows.commands

theorem Shows.tick (shows : bench.Shows respond scene) :
    (bench.onStation Station.tick).Shows respond scene :=
  shows.keep rfl rfl rfl rfl rfl rfl rfl rfl (commands_cons rfl rfl)

theorem Shows.setClock (shows : bench.Shows respond scene) (time : Nat) :
    (bench.onStation fun station => { station with clock := time }).Shows respond scene :=
  shows.keep rfl rfl rfl rfl rfl rfl rfl rfl rfl

theorem IsCalm.tick (calm : bench.IsCalm respond limit scene) :
    (bench.onStation Station.tick).IsCalm respond limit scene :=
  { calm.toShows.tick with
    quiet := ⟨calm.quiet.deliveries, calm.quiet.framer⟩
    sendLine := calm.sendLine }

/-- The line for cycles may change while a caller begins or ends one. -/
theorem IsCalm.turn {cycleLine : List Nat} (calm : bench.IsCalm respond limit scene) (changed : Bench σ)
    {entry : Entry}
    (station : changed.station = { bench.station with journal := entry :: bench.journal })
    (silent : entry.event.written? = none) (farEnd : changed.farEnd = bench.farEnd)
    (pace : changed.pace = bench.pace) (deliveries : changed.deliveries = bench.deliveries)
    (sendLine : changed.sendLine = bench.sendLine) (same : changed.cycleLine = cycleLine) :
    changed.IsCalm respond limit { scene with cycleLine := cycleLine } := by
  have journal : changed.journal = entry :: bench.journal := by rw [Bench.journal, station]
  obtain ⟨isOpen, succeeds, stays, inTime⟩ := calm.working
  constructor
  · constructor
    · constructor <;> rw [station] <;> assumption
    · rw [station]; exact calm.connected
    · rw [station, pace]; exact calm.inTime
    · rw [farEnd]; exact calm.respond
    · rw [farEnd]; exact calm.state
    · rw [station]; exact calm.cache
    · exact same
    · exact (commands_cons journal silent).trans calm.commands
  · exact ⟨deliveries.trans calm.quiet.deliveries, by rw [station]; exact calm.quiet.framer⟩
  · exact sendLine.trans calm.sendLine

theorem IsCalm.setClock (calm : bench.IsCalm respond limit scene) (time : Nat) :
    (bench.onStation fun station => { station with clock := time }).IsCalm respond limit scene :=
  { calm.toShows.setClock time with
    quiet := ⟨calm.quiet.deliveries, calm.quiet.framer⟩
    sendLine := calm.sendLine }

theorem isLasting_isCalm (respond : σ → String → σ × List String) (limit : Nat) (scene : Scene σ) :
    IsLasting (IsCalm respond limit scene) where
  silent := fun _ calm => calm.quiet.deliveries
  tick := fun _ calm => calm.tick
  elapse := fun _ time calm => calm.setClock time

theorem Shows.isPrompt (shows : bench.Shows respond scene) : bench.frame.IsPrompt :=
  ⟨shows.working.isOpen, shows.working.succeeds, shows.working.stays, shows.working.inTime, shows.inTime⟩

/-- An exchange changes what the bench shows as it changes the frame. -/
theorem Shows.taken (shows : bench.Shows respond scene) {command : String}
    (same : after.frame = bench.frame.taken command) :
    after.Shows respond (scene.taken respond command) where
  working := by
    obtain ⟨isOpen, succeeds, stays, inTime⟩ := shows.working
    have port : after.station.port = bench.station.port := congrArg Frame.port same
    have bound : after.station.link.writeBound = bench.station.link.writeBound :=
      congrArg Frame.writeBound same
    constructor
    · rw [port]; exact isOpen
    · rw [port]; exact succeeds
    · rw [port]; exact stays
    · rw [port, bound]; exact inTime
  connected := (congrArg (fun frame => frame.connection.isOpen) same).trans shows.connected
  inTime := by
    have pace : after.pace = bench.pace := congrArg Frame.pace same
    have bound : after.station.link.replyBound = bench.station.link.replyBound :=
      congrArg Frame.replyBound same
    rw [pace, bound]
    exact shows.inTime
  respond := (congrArg (fun frame => frame.farEnd.respond) same).trans shows.respond
  state := by
    have state : after.farEnd.state = (bench.farEnd.respond bench.farEnd.state command).1 :=
      congrArg (fun frame => frame.farEnd.state) same
    rw [state, shows.respond, shows.state]
    rfl
  cache := (congrArg Frame.cache same).trans shows.cache
  cycleLine := (congrArg Frame.cycleLine same).trans shows.cycleLine
  commands := (congrArg Frame.commands same).trans (congrArg (· ++ [command]) shows.commands)

/-- If the far end answers with one line in time, every exchange ends with it. -/
theorem IsCalm.answered {last : Traffic α σ} {line command : String}
    {next : Except Fault String → Routine α} (calm : bench.IsCalm respond limit scene)
    (answer : (respond scene.state (Text.stripLineEnd command)).2 = [line])
    (printable : Text.IsPrintable line) (short : line.length ≤ limit)
    (reached : (Traffic.alone (Caller.run 0 (.ask command next) bench)).Reaches last)
    (finished : last.isFinished = true) :
    ∃ later : Bench σ, later.IsCalm respond limit (scene.taken respond (Text.stripLineEnd command)) ∧
      (Traffic.alone (Caller.run 0 (next (.ok line)) later)).Reaches last := by
  have idle : bench.IsIdle bench.frame (.empty limit) :=
    ⟨rfl, calm.quiet.framer, calm.quiet.deliveries, calm.sendLine⟩
  have given : bench.frame.answer (Text.stripLineEnd command) = [line] := by
    rw [← answer, ← calm.respond, ← calm.state]
    rfl
  have whole : Delivery.ComesWhole (.empty limit) bench.frame.pace.chunkSize
      (bench.frame.answer (Text.stripLineEnd command)) := by
    rw [given]
    exact Delivery.comesWhole_line _ printable _
  have fed : (Framer.empty limit).feed
      (Delivery.payload (bench.frame.answer (Text.stripLineEnd command))) = (.empty limit, [line]) := by
    rw [given, Delivery.feed_payload_of_printable]
    intro other member
    rw [List.mem_singleton.mp member]
    exact ⟨printable, short⟩
  obtain ⟨later, idle, runs⟩ := idle.answered calm.isPrompt whole reached finished
  rw [fed] at idle runs
  have room : ([] : List String).length < bench.frame.room := bench.station.link.queue.room_pos
  rw [Frame.reply_cons room] at runs
  exact ⟨later, { calm.toShows.taken idle.frame with
    quiet := ⟨idle.deliveries, idle.framer⟩
    sendLine := idle.sendLine }, runs⟩

end

/-- Whatever happens meanwhile, a routine comes to a value, and the scene to another one. -/
def Yields (respond : σ → String → σ × List String) (limit : Nat) (routine : Routine α) (value : α)
    (before after : Scene σ) : Prop :=
  Secures (IsCalm respond limit before) (IsCalm respond limit after) routine value

namespace Yields

variable {respond : σ → String → σ × List String} {limit : Nat} {before middle after : Scene σ}
  {routine other : Routine α} {value : α}

theorem done (value : α) (scene : Scene σ) : Yields respond limit (.done value) value scene scene :=
  Secures.done value _

theorem andThen {following : α → Routine β} {result : β}
    (first : Yields respond limit routine value before middle)
    (second : Yields respond limit (following value) result middle after) :
    Yields respond limit (routine.andThen following) result before after :=
  Secures.andThen first second

theorem look {next : Station → Routine α}
    (later : ∀ bench : Bench σ, bench.IsCalm respond limit before →
      Yields respond limit (next bench.station) value before after) :
    Yields respond limit (.look next) value before after :=
  fun bench calm _ _ _ reached finished => later bench calm bench calm _ _ _ reached finished

/-- What a caller finds at the station is the same in every scene of the kind. -/
theorem find {read : Station → α}
    (found : ∀ bench : Bench σ, bench.IsCalm respond limit before → read bench.station = value) :
    Yields respond limit (.find read) value before before :=
  look fun bench calm => by rw [found bench calm]; exact done value before

theorem store {snapshot : Snapshot} {next : Routine α}
    (later : Yields respond limit next value { before with cache := snapshot } after) :
    Yields respond limit (.act (.store snapshot) next) value before after := by
  refine Secures.of_run later fun bench calm => ?_
  refine ⟨bench.onStation (Station.perform 0 (.store snapshot)), ?_, fun _ _ => rfl⟩
  have commands : (bench.onStation (Station.perform 0 (.store snapshot))).commands = bench.commands :=
    commands_cons rfl rfl
  exact {
    working := ⟨calm.working.isOpen, calm.working.succeeds, calm.working.stays, calm.working.inTime⟩
    connected := calm.connected
    inTime := calm.inTime
    respond := calm.respond
    state := calm.state
    cache := rfl
    cycleLine := calm.cycleLine
    commands := commands.trans calm.commands
    quiet := ⟨calm.quiet.deliveries, calm.quiet.framer⟩
    sendLine := calm.sendLine }

/-- With nobody else in the line, a routine runs as a cycle as it runs otherwise. -/
theorem cycle (free : before.cycleLine = [])
    (inside : Yields respond limit routine value { before with cycleLine := [0] }
      { after with cycleLine := [0] }) :
    Yields respond limit (.cycle routine) value before { after with cycleLine := [] } := by
  have releases : Yields respond limit (.release (.done value)) value { after with cycleLine := [0] }
      { after with cycleLine := [] } := by
    refine Secures.of_run (done value _) fun bench calm => ?_
    have released := calm.turn bench.released rfl rfl rfl rfl rfl rfl (congrArg List.tail calm.cycleLine)
    exact ⟨bench.released, released, fun _ _ => rfl⟩
  have runs : Yields respond limit (routine.andThen fun value => .release (.done value)) value
      { before with cycleLine := [0] } { after with cycleLine := [] } := inside.andThen releases
  refine Secures.of_run runs fun bench calm => ⟨bench.claimed, ?_, ?_⟩
  · exact calm.turn bench.claimed rfl rfl rfl rfl rfl rfl rfl
  · intro β follow
    have line : bench.cycleLine = [] := calm.cycleLine.trans free
    simp only [Routine.cycle, Routine.andThen, Caller.run, line]
    rfl

/-- A caller goes on with the line with which the far end answers. -/
theorem ask {command line : String} {next : Except Fault String → Routine α}
    (answer : (respond before.state (Text.stripLineEnd command)).2 = [line])
    (printable : Text.IsPrintable line) (short : line.length ≤ limit)
    (later : Yields respond limit (next (.ok line)) value
      (before.taken respond (Text.stripLineEnd command)) after) :
    Yields respond limit (.ask command next) value before after := by
  intro bench calm β follow last reached finished
  obtain ⟨between, calm, reached⟩ := calm.answered answer printable short reached finished
  exact later between calm β follow last reached finished

end Yields

/-- However a run goes on that comes to its end, the routine has come to its value. -/
theorem Yields.of_reaches {respond : σ → String → σ × List String} {limit : Nat} {before after : Scene σ}
    {routine : Routine α} {value : α} (yields : Yields respond limit routine value before after)
    {bench : Bench σ} (calm : bench.IsCalm respond limit before) {last : Traffic α σ}
    (reached : (Traffic.start bench [routine]).Reaches last) (finished : last.isFinished = true) :
    (∃ time, last.callers = [.finished time value]) ∧ last.bench.IsCalm respond limit after :=
  Secures.of_reaches yields (isLasting_isCalm respond limit before) (isLasting_isCalm respond limit after)
    calm reached finished

end Bench

end DelayGenerator
