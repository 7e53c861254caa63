/-
This file accounts for the state of the connection by the history of the calls: which of them opened or lost the
connection last, and how many exchanges have taken too long since somebody connected.
-/

import DelayGenerator.Proofs.Bench.Connection
import DelayGenerator.Proofs.Bench.Deeds
import DelayGenerator.Proofs.Bench.Schedule
import DelayGenerator.Proofs.Operation.Caching

namespace DelayGenerator

/-- A shutdown lets others go on before it disconnects, if the ticker runs and there is a grace period. -/
theorem Operation.shutdown_andThen {α : Type} (grace : Nat) (follow : Unit → Routine α) :
    (shutdown grace).andThen follow =
      .look fun station => .act .stopTicker
        (if station.ticker.due.isSome && grace != 0 then
          .rest (.act .disconnected (.act .closePort (follow ())))
        else .act .disconnected (.act .closePort (follow ()))) := by
  refine congrArg Routine.look (funext fun station => congrArg (Routine.act .stopTicker) ?_)
  cases station.ticker.due.isSome && grace != 0 <;> rfl

namespace Call

/-- What connecting does once it has the turn, until it asks for all settings. -/
def opening (port : String) (baudRate : Nat) : List Deed :=
  [.claim, .act .resetLink, .act (.openPort port baudRate), .act (.connected port baudRate)]

/-- What somebody who is called for this has done while waiting, or by giving an answer. -/
inductive HasDone : Call → List Deed → Option Answer → Prop
  | waits (call : Call) : HasDone call [] none
  /-- The port has opened, and the settings are asked for. -/
  | opened (port : String) (baudRate : Nat) : HasDone (.connect port baudRate) (opening port baudRate) none
  | connected (port : String) (baudRate : Nat) (snapshot : Snapshot) :
      HasDone (.connect port baudRate) (opening port baudRate ++ [.act (.store snapshot)])
        (some (.identity (.ok snapshot.identity)))
  /-- The port has not opened. -/
  | refused (port : String) (baudRate : Nat) (refusal : OpenRefusal) :
      HasDone (.connect port baudRate) [.claim, .act .resetLink, .act .disconnected]
        (some (.identity (.error (.transport (refusal.detail port baudRate)))))
  | fetches : HasDone .fetch [.claim] none
  | fetched (snapshot : Snapshot) :
      HasDone .fetch [.claim, .act (.store snapshot)] (some (.snapshot snapshot))
  | notFetched : HasDone .fetch [] (some (.snapshot .placeholder))
  | commits (attempts : Nat) (protocol : Protocol) : HasDone (.commit attempts protocol) [.claim] none
  | committed (attempts : Nat) (protocol : Protocol) (report : CommitReport) :
      HasDone (.commit attempts protocol) [.claim] (some (.report report))
  | notCommitted (attempts : Nat) (protocol : Protocol) :
      HasDone (.commit attempts protocol) [] (some (.report .withoutConnection))
  | resets (attempts : Nat) : HasDone (.reset attempts) [.claim] none
  | reset (attempts : Nat) (running : Bool) : HasDone (.reset attempts) [.claim] (some (.isRunning running))
  | notReset (attempts : Nat) : HasDone (.reset attempts) [] (some (.isRunning false))
  | disconnected : HasDone .disconnect [.act .disconnected, .act .closePort] (some .nothing)
  /-- The ticker has been stopped, and others go on before the port closes. -/
  | stops (grace : Nat) : HasDone (.shutdown grace) [.act .stopTicker] none
  | stopped (grace : Nat) :
      HasDone (.shutdown grace) [.act .stopTicker, .act .disconnected, .act .closePort] (some .nothing)
  | sent (command : String) (outcome : Except Fault String) :
      HasDone (.send command) [] (some (.reply outcome))
  | disturbed (act : Act) (harmless : ∀ snapshot, act ≠ .store snapshot) :
      HasDone (.disturb act harmless) [.act act] (some .nothing)

/-- Asking for all settings adds that the snapshot is stored. -/
theorem performs_refresh {expected : List Deed → Option Answer → Prop} {past : List Deed}
    (waits : expected past none) {follow : Snapshot → Routine Answer}
    (goesOn : ∀ snapshot, (follow snapshot).Performs expected (past ++ [.act (.store snapshot)])) :
    (Operation.refresh.andThen follow).Performs expected past := by
  rw [Routine.refresh_andThen]
  intro station
  refine ((Operation.only_askAll Query.all station.cache).performs past).andThen ?_ ?_
  · rintro deeds rfl
    exact waits
  · rintro deeds snapshot rfl
    exact goesOn snapshot

/-- Exchanges of commands within a cycle add nothing but the cycle. -/
theorem performs_cycle {α : Type} {expected : List Deed → Option Answer → Prop} {routine : Routine α}
    (only : routine.Only (fun _ => False) False) (begins : expected [] none) (waits : expected [.claim] none)
    {answer : α → Answer} (gives : ∀ value, expected [.claim] (some (answer value))) :
    (Routine.claim (routine.andThen fun value => .release (.done (answer value)))).Performs expected [] := by
  refine ⟨begins, (only.performs [.claim]).andThen ?_ ?_⟩
  · rintro deeds rfl
    exact waits
  · rintro deeds value rfl
    exact gives value

/-- Whoever is called for something does what belongs to it. -/
theorem performs_routine (call : Call) : call.routine.Performs call.HasDone [] := by
  cases call with
  | connect port baudRate =>
      rw [routine, Operation.connect_andThen]
      refine ⟨.waits _, fun station => ?_⟩
      dsimp only
      split
      next fault refused =>
        obtain ⟨refusal, _, rfl⟩ := Option.map_eq_some_iff.mp refused
        exact .refused port baudRate refusal
      next => exact performs_refresh (.opened port baudRate) fun snapshot => .connected port baudRate snapshot
  | fetch =>
      rw [routine, Operation.fetch_andThen]
      intro station
      dsimp only
      split
      · exact ⟨.waits _, performs_refresh .fetches fun snapshot => .fetched snapshot⟩
      · exact .notFetched
  | commit attempts protocol =>
      have only : (Operation.sendProtocol attempts protocol).Only (fun _ => False) False :=
        Routine.Only.andThen (Operation.only_tryAll attempts _) fun failed => trivial
      rw [routine, Operation.commit_andThen]
      intro station
      dsimp only
      split
      · exact performs_cycle only (.waits _) (.commits attempts protocol) fun report =>
          .committed attempts protocol report
      · exact .notCommitted attempts protocol
  | reset attempts =>
      rw [routine, Operation.reset_andThen]
      intro station
      dsimp only
      split
      · exact performs_cycle (Operation.only_restart attempts) (.waits _) (.resets attempts)
          fun running => .reset attempts running
      · exact .notReset attempts
  | disconnect => exact .disconnected
  | shutdown grace =>
      rw [routine, Operation.shutdown_andThen]
      intro station
      change Routine.Performs _ (if _ then _ else _) [.act .stopTicker]
      split
      · exact ⟨.stops grace, .stopped grace⟩
      · exact .stopped grace
  | send command => exact ⟨.waits _, fun outcome => .sent command outcome⟩
  | disturb act harmless => exact .disturbed act harmless

/-- How a call turns the connection. -/
inductive Turns : Call → LinkTurn → Prop
  | opened (port : String) (baudRate : Nat) : Turns (.connect port baudRate) (.opened port baudRate)
  /-- The port has not opened. -/
  | refused (port : String) (baudRate : Nat) : Turns (.connect port baudRate) .lost
  | disconnected : Turns .disconnect .lost
  | stopped (grace : Nat) : Turns (.shutdown grace) .lost

/-- What happens to the line meanwhile does not touch what the program keeps of the connection. -/
def IsOuter : Call → Prop
  | .disturb act _ => act.linkTurn? = none ∧ act.isReset = false
  | _ => True

/-- No call turns the connection but those that are meant to. -/
theorem HasDone.turns {call : Call} (outer : call.IsOuter) {deeds : List Deed} {result : Option Answer}
    (done : call.HasDone deeds result) {turn : LinkTurn}
    (member : turn ∈ (deeds.filterMap Deed.act?).filterMap Act.linkTurn?) : call.Turns turn := by
  cases done with
  | opened port baudRate =>
      cases List.mem_singleton.mp member
      exact .opened port baudRate
  | connected port baudRate snapshot =>
      cases List.mem_singleton.mp member
      exact .opened port baudRate
  | refused port baudRate refusal =>
      cases List.mem_singleton.mp member
      exact .refused port baudRate
  | disconnected =>
      cases List.mem_singleton.mp member
      exact .disconnected
  | stopped grace =>
      cases List.mem_singleton.mp member
      exact .stopped grace
  | disturbed act harmless =>
      change turn ∈ [act].filterMap Act.linkTurn? at member
      simp [outer.1] at member
  | _ => exact absurd member List.not_mem_nil

/-- Only a connect resets the counters. -/
theorem HasDone.exists_connect {call : Call} (outer : call.IsOuter) {deeds : List Deed} {result : Option Answer}
    (done : call.HasDone deeds result) {act : Act} (member : act ∈ deeds.filterMap Deed.act?)
    (resets : act.isReset = true) : ∃ port baudRate, call = .connect port baudRate := by
  have among : act ∈ (deeds.filterMap Deed.act?).filter Act.isReset := List.mem_filter.mpr ⟨member, resets⟩
  cases done with
  | opened port baudRate => exact ⟨port, baudRate, rfl⟩
  | connected port baudRate snapshot => exact ⟨port, baudRate, rfl⟩
  | refused port baudRate refusal => exact ⟨port, baudRate, rfl⟩
  | disturbed own harmless =>
      cases List.mem_singleton.mp member
      simp [outer.2] at resets
  | _ => exact absurd among List.not_mem_nil

end Call

namespace Traffic

variable {σ : Type} {settings : Settings} {first : Bench σ} {calls : List (Nat × Call)}
  {last : Traffic Call.Answer σ}

/-- A caller has done what belongs to its call. -/
def HasDoneCall (calls : List (Nat × Call)) (number : Nat) (deeds : List Deed) (result : Option Call.Answer) : Prop :=
  ∀ delay call, calls[number]? = some (delay, call) → call.HasDone deeds result

theorem hasDoneCall {number delay : Nat} {call : Call} {deeds : List Deed} {result : Option Call.Answer}
    (called : calls[number]? = some (delay, call)) (done : call.HasDone deeds result) :
    HasDoneCall calls number deeds result := by
  intro delay other again
  cases called.symm.trans again
  exact done

/-- After every run, every caller has done what belongs to what it is called for. -/
theorem Reaches.hasDone (fresh : first.IsFresh) (reached : (launch first calls).Reaches last)
    {number delay : Nat} {call : Call} {caller : Caller Call.Answer} (called : calls[number]? = some (delay, call))
    (here : last.callers[number]? = some caller) :
    call.HasDone (Journal.deeds number last.journal) (caller.result?.map Prod.snd) := by
  have performed : last.HavePerformed (HasDoneCall calls) := by
    refine reached.havePerformed fresh fun index routine found => ?_
    rw [List.getElem?_map, Option.map_eq_some_iff] at found
    obtain ⟨⟨delay, call⟩, called, rfl⟩ := found
    exact ⟨hasDoneCall called (.waits call), hasDoneCall called (.waits call),
      call.performs_routine.mono fun _ _ => hasDoneCall called⟩
  exact (performed number caller here).now delay call called

/-- Whatever somebody has done at the station, it belongs to what it is called for. -/
theorem Reaches.exists_hasDone (fresh : first.IsFresh) (reached : (launch first calls).Reaches last)
    {entry : Entry} (member : entry ∈ last.journal) {act : Act} (acts : entry.event.act? = some act) :
    ∃ number delay call result, entry.event.caller? = some number ∧ calls[number]? = some (delay, call) ∧
      call.HasDone (Journal.deeds number last.journal) result ∧
      act ∈ (Journal.deeds number last.journal).filterMap Deed.act? := by
  obtain ⟨time, event⟩ := entry
  cases event with
  | did number own =>
      cases acts
      obtain ⟨delay, call, caller, called, here⟩ := reached.exists_call fresh member rfl
      have deed : .act act ∈ Journal.deeds number last.journal :=
        Journal.mem_collect.mpr ⟨_, member, if_pos rfl⟩
      exact ⟨number, delay, call, _, rfl, called, reached.hasDone fresh called here,
        List.mem_filterMap.mpr ⟨_, deed, rfl⟩⟩
  | _ => contradiction

/-- The state of the connection is accounted for by what has happened. -/
structure AccountsForHistory (first : Bench σ) (calls : List (Nat × Call)) (last : Traffic Call.Answer σ) :
    Prop where
  /-- The instrument is connected if the port is open and the latest turn has opened the connection. -/
  isOpen : last.bench.station.connectionState.isOpen = true ↔ last.bench.station.port.isOpen = true ∧
    ∃ port baudRate, Journal.latest? Event.linkTurn? last.journal = some (.opened port baudRate)
  /-- Port and baud rate are those with which the connection has been opened last. -/
  place : (last.bench.station.connectionState.port, last.bench.station.connectionState.baudRate) =
    (Journal.latest? Event.opened? last.journal).getD ("", 0)
  /-- The counters say how many exchanges have ended because they took too long since the latest reset, and no
  other exchanges. -/
  writeTimeouts : last.bench.station.connectionState.writeTimeouts =
    (last.bench.station.since Event.isReset).countP Event.isWriteTimeout
  replyTimeouts : last.bench.station.connectionState.replyTimeouts =
    (last.bench.station.since Event.isReset).countP Event.isReplyTimeout
  /-- The turns are those of calls that connect, disconnect or shut down. -/
  turns : ∀ {entry : Entry} {turn : LinkTurn}, entry ∈ last.journal → entry.event.linkTurn? = some turn →
    ∃ number delay call, entry.event.caller? = some number ∧ calls[number]? = some (delay, call) ∧
      call.Turns turn
  /-- The resets are those of calls that connect. -/
  resets : ∀ {entry : Entry}, entry ∈ last.journal → entry.event.isReset = true →
    ∃ number delay port baudRate, entry.event.caller? = some number ∧
      calls[number]? = some (delay, .connect port baudRate)
  /-- Whoever waits or has finished has done exactly what belongs to its call. A connect has reset the counters as
  the first thing in its cycle, and then has either opened both port and connection or failed and lost it. -/
  done : ∀ {number delay : Nat} {call : Call} {caller : Caller Call.Answer}, calls[number]? = some (delay, call) →
    last.callers[number]? = some caller →
    call.HasDone (Journal.deeds number last.journal) (caller.result?.map Prod.snd)
  /-- Between resets the counters do not decrease. -/
  neverDecrease : ∀ {middle : Traffic Call.Answer σ}, (launch first calls).Reaches middle →
    middle.Reaches last → ∃ later, last.journal = later ++ middle.journal ∧
    ((∀ entry ∈ later, entry.event.isReset = false) →
      middle.bench.station.connectionState.writeTimeouts ≤ last.bench.station.connectionState.writeTimeouts ∧
      middle.bench.station.connectionState.replyTimeouts ≤ last.bench.station.connectionState.replyTimeouts)

/-- Whatever is called for at the same time, and whatever happens to the line, the state of the connection is
accounted for by what has happened. -/
theorem Reaches.accountsForHistory {port : Port} (idle : first.station = .idle settings port)
    (free : first.sendLine = []) (outer : ∀ call ∈ calls, call.2.IsOuter)
    (reached : (launch first calls).Reaches last) : AccountsForHistory first calls last := by
  have fresh : first.IsFresh := ⟨by rw [idle]; rfl, free⟩
  have outer {number delay : Nat} {call : Call} (called : calls[number]? = some (delay, call)) : call.IsOuter :=
    outer _ (List.mem_of_getElem? called)
  have counters {traffic : Traffic Call.Answer σ} (reached : (launch first calls).Reaches traffic) :=
    reached.counters fresh (by rw [idle]; rfl) (by rw [idle]; rfl)
  have connection := reached.connection fresh
  have start : first.station.connection = ⟨false, "", 0⟩ := by rw [idle]; rfl
  rw [start] at connection
  constructor
  · change (last.bench.station.connection.isOpen && last.bench.station.port.isOpen) = true ↔ _
    rw [Bool.and_eq_true, connection, Journal.isOpen_connection rfl, and_comm]
  · change (last.bench.station.connection.port, last.bench.station.connection.baudRate) = _
    rw [connection]
    exact Journal.place_connection _ _
  · exact (counters reached).1
  · exact (counters reached).2
  · intro entry turn member turns
    obtain ⟨act, acts, turns⟩ := Option.bind_eq_some_iff.mp turns
    obtain ⟨number, delay, call, result, own, called, done, among⟩ := reached.exists_hasDone fresh member acts
    have turned := List.mem_filterMap.mpr ⟨act, among, turns⟩
    exact ⟨number, delay, call, own, called, done.turns (outer called) turned⟩
  · intro entry member resets
    obtain ⟨act, acts, resets⟩ := (Option.any_eq_true _ _).mp resets
    obtain ⟨number, delay, call, result, own, called, done, among⟩ := reached.exists_hasDone fresh member acts
    obtain ⟨port, baudRate, rfl⟩ := done.exists_connect (outer called) among resets
    exact ⟨number, delay, port, baudRate, own, called⟩
  · exact reached.hasDone fresh
  · intro middle early late
    obtain ⟨later, grown⟩ := late.journal_suffix
    refine ⟨later, grown.symm, fun kept => ?_⟩
    have decreases := Station.countP_since_le grown.symm kept
    change middle.bench.station.link.writeTimeouts ≤ last.bench.station.link.writeTimeouts ∧
      middle.bench.station.link.replyTimeouts ≤ last.bench.station.link.replyTimeouts
    rw [(counters early).1, (counters early).2, (counters reached).1, (counters reached).2]
    exact ⟨decreases _, decreases _⟩

/-- The instrument never answers, soon it does not even take a command, and the connection is closed meanwhile. -/
theorem Reaches.accountsForHistory_silence :
    let first := Bench.opened Settings.defaults (⟨(), fun _ _ => ((), [])⟩ : FarEnd Unit) ⟨5, none⟩
    let calls := [(0, Call.connect "port" 9600), (100, .disturb (.setWriteTime none) nofun), (350, .disconnect)]
    let round : List Move := [.elapse, .turn 0, .turn 1, .turn 2]
    let last := (launch first calls).play ([.turn 0, .turn 1, .turn 2] ++ (List.replicate 20 round).flatten)
    AccountsForHistory first calls last ∧ last.callers.map Caller.isFinished = [true, true, true] ∧
      last.bench.station.connectionState = ⟨false, "port", 9600, 8, 1⟩ :=
  ⟨@Reaches.accountsForHistory _ _ _ _ _ { Port.ready with isOpen := true } rfl rfl
    (by simp [Call.IsOuter, Act.linkTurn?, Act.isReset]) (reaches_play _ _), by decide +kernel,
    by decide +kernel⟩

end Traffic

end DelayGenerator
