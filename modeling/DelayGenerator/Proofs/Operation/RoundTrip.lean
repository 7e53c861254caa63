/-
This file commits a protocol to the instrument and fetches it again: whatever the instrument has
been set to before, what comes back is what has been sent, but for the digits that times lose on the
way.
-/

import DelayGenerator.Bench.Script
import DelayGenerator.Proofs.Bench.Certain
import DelayGenerator.Proofs.Bench.Ending
import DelayGenerator.Proofs.Instrument
import DelayGenerator.Proofs.Operation.Call
import DelayGenerator.Proofs.Operation.Commit

namespace DelayGenerator

/-- A far end that is nothing but the instrument. -/
def Script.simulating (instrument : Instrument) : Script := ⟨[], .instrument instrument⟩

namespace Bench

/-- The scene of a bench with the instrument. -/
def Scene.withInstrument (instrument : Instrument) (cache : Snapshot) (cycleLine : List Nat)
    (commands : List String) : Scene Script :=
  ⟨.simulating instrument, cache, cycleLine, commands⟩

end Bench

namespace Operation

open Bench

section

variable {limit : Nat} {instrument : Instrument} {cache : Snapshot} {cycleLine : List Nat}
  {commands : List String}

/-- The instrument takes a command, and the caller goes on with the reply. -/
theorem yields_ask {α : Type} {command : String} {next : Except Fault String → Routine α} {value : α}
    {after : Scene Script} (fits : ∀ command, (instrument.answer command).2.length ≤ limit)
    (whole : Text.stripLineEnd command = command)
    (later : Yields Script.respond limit (next (.ok (instrument.answer command).2)) value
      (.withInstrument (instrument.answer command).1 cache cycleLine (commands ++ [command])) after) :
    Yields Script.respond limit (.ask command next) value
      (.withInstrument instrument cache cycleLine commands) after := by
  have printable := (instrument.isReply_answer command).isPrintable
  rw [← whole] at later printable
  exact .ask rfl printable (fits _) later

theorem yields_acknowledge (fits : ∀ command, (instrument.answer command).2.length ≤ limit)
    {directive : Directive} (whole : Text.stripLineEnd directive.text = directive.text)
    (acknowledged : (instrument.answer directive.text).2 = acknowledgement) (attempts : Nat) :
    Yields Script.respond limit (acknowledge attempts directive) true
      (.withInstrument instrument cache cycleLine commands)
      (.withInstrument (instrument.answer directive.text).1 cache cycleLine
        (commands ++ [directive.text])) := by
  apply Yields.look
  intro bench calm
  rw [if_pos calm.working.isOpen]
  obtain ⟨more, same⟩ := Nat.exists_eq_succ_of_ne_zero (show max attempts 1 ≠ 0 by omega)
  rw [same]
  apply yields_ask fits whole
  rw [acknowledged]
  exact .done true _

/-- Directives that are always acknowledged are tried once each. -/
theorem yields_tryAll (fits : ∀ (instrument : Instrument) command, (instrument.answer command).2.length ≤ limit)
    {directives : List Directive}
    (taken : ∀ directive ∈ directives, Text.stripLineEnd directive.text = directive.text ∧
      ∀ instrument : Instrument, (instrument.answer directive.text).2 = acknowledgement)
    (attempts : Nat) :
    Yields Script.respond limit (tryAll attempts directives) []
      (.withInstrument instrument cache cycleLine commands)
      (.withInstrument (instrument.obey directives) cache cycleLine
        (commands ++ directives.map Directive.text)) := by
  induction directives generalizing instrument commands with
  | nil =>
      rw [List.map_nil, List.append_nil]
      exact .done [] _
  | cons first others inductionHypothesis =>
      obtain ⟨whole, acknowledged⟩ := taken first List.mem_cons_self
      rw [List.map_cons, List.append_cons]
      refine .andThen (yields_acknowledge (fits instrument) whole (acknowledged instrument) attempts) ?_
      exact .andThen (inductionHypothesis fun directive member =>
        taken directive (List.mem_cons_of_mem first member)) (.done [] _)

/-- Whatever is known already, every query is answered with the setting that it asks for. -/
theorem yields_askAll (fits : ∀ command, (instrument.answer command).2.length ≤ limit)
    (settings : List Setting) (snapshot : Snapshot) :
    Yields Script.respond limit (askAll (settings.map Setting.query) snapshot)
      (snapshot.noteEach (fun setting => .ok (instrument.report setting)) settings)
      (.withInstrument instrument cache cycleLine commands)
      (.withInstrument instrument cache cycleLine
        (commands ++ settings.map fun setting => setting.query.text)) := by
  induction settings generalizing snapshot commands with
  | nil =>
      rw [List.map_nil, List.map_nil, List.append_nil]
      exact .done _ _
  | cons first others inductionHypothesis =>
      rw [List.map_cons, List.map_cons, List.append_cons]
      refine yields_ask fits first.stripLineEnd_text_query ?_
      rw [instrument.answer_query first]
      exact inductionHypothesis _

/-- What is done unless the station is closed is done as a cycle. -/
theorem yields_guarded {α : Type} {inner : Routine α} {value : α} {next : Instrument} {stored : Snapshot}
    {later : List String}
    (yields : Yields Script.respond limit inner value (.withInstrument instrument cache [0] commands)
      (.withInstrument next stored [0] later)) (otherwise : α) :
    Yields Script.respond limit
      ((Routine.find Station.isOpen).andThen fun isOpen =>
        if isOpen then Routine.cycle inner else .done otherwise) value
      (.withInstrument instrument cache [] commands) (.withInstrument next stored [] later) := by
  have found : Yields Script.respond limit (.find Station.isOpen) true
      (.withInstrument instrument cache [] commands) (.withInstrument instrument cache [] commands) := by
    refine .find fun bench calm => ?_
    rw [Station.isOpen, calm.connected, calm.working.isOpen]
    rfl
  exact found.andThen (@Yields.cycle α Script Script.respond limit
    (.withInstrument instrument cache [] commands)
    (.withInstrument next stored [] later) inner value rfl yields)

variable {protocol : Protocol}

theorem yields_commit (fits : ∀ (instrument : Instrument) command, (instrument.answer command).2.length ≤ limit)
    (proper : protocol.IsProper) (attempts : Nat) (instrument : Instrument) (cache : Snapshot)
    (commands : List String) :
    Yields Script.respond limit (commit attempts protocol) ⟨false, 35, []⟩
      (.withInstrument instrument cache [] commands)
      (.withInstrument (.settled protocol) cache []
        (commands ++ (Directive.ofProtocol protocol).map Directive.text)) := by
  have length : (Directive.ofProtocol protocol).length = 35 := by
    rw [Directive.ofProtocol_eq]
    rfl
  have tries : Yields Script.respond limit (tryAll attempts (Directive.ofProtocol protocol)) []
      (.withInstrument instrument cache [0] commands)
      (.withInstrument (.settled protocol) cache [0]
        (commands ++ (Directive.ofProtocol protocol).map Directive.text)) := by
    rw [← Instrument.obey_ofProtocol proper instrument]
    exact yields_tryAll fits (fun directive member =>
      ⟨Directive.stripLineEnd_text member, Instrument.answer_ofProtocol proper member⟩) attempts
  have reports : Yields Script.respond limit (sendProtocol attempts protocol) ⟨false, 35, []⟩
      (.withInstrument instrument cache [0] commands)
      (.withInstrument (.settled protocol) cache [0]
        (commands ++ (Directive.ofProtocol protocol).map Directive.text)) := by
    rw [← length]
    exact tries.andThen (.done _ _)
  exact yields_guarded reports _

theorem yields_fetch (fits : ∀ (instrument : Instrument) command, (instrument.answer command).2.length ≤ limit)
    (proper : instrument.protocol.IsProper) (cache : Snapshot) (commands : List String) :
    Yields Script.respond limit fetch ⟨Instrument.identity, instrument.protocol.transmitted⟩
      (.withInstrument instrument cache [] commands)
      (.withInstrument instrument ⟨Instrument.identity, instrument.protocol.transmitted⟩ []
        (commands ++ Setting.script)) := by
  have found : Yields Script.respond limit (.find Station.cache) cache
      (.withInstrument instrument cache [0] commands) (.withInstrument instrument cache [0] commands) :=
    .find fun bench calm => calm.cache
  have asks : Yields Script.respond limit (askAll Query.all cache)
      ⟨Instrument.identity, instrument.protocol.transmitted⟩ (.withInstrument instrument cache [0] commands)
      (.withInstrument instrument cache [0] (commands ++ Setting.script)) := by
    rw [← Setting.map_query_all, ← Setting.map_text_query_all, ← Instrument.noteEach_report proper cache]
    exact yields_askAll (fits instrument) Setting.all cache
  have stores : Yields Script.respond limit
      (.act (.store ⟨Instrument.identity, instrument.protocol.transmitted⟩)
        (.done (⟨Instrument.identity, instrument.protocol.transmitted⟩ : Snapshot)))
      ⟨Instrument.identity, instrument.protocol.transmitted⟩
      (.withInstrument instrument cache [0] (commands ++ Setting.script))
      (.withInstrument instrument ⟨Instrument.identity, instrument.protocol.transmitted⟩ [0]
        (commands ++ Setting.script)) := .store (.done _ _)
  exact yields_guarded (found.andThen (asks.andThen stores)) _

end

/-- Sends a protocol and asks for all settings afterwards. -/
def commitAndFetch (attempts : Nat) (protocol : Protocol) : Routine (CommitReport × Snapshot) := do
  let report ← commit attempts protocol
  let snapshot ← fetch
  return (report, snapshot)

/-- Sends a protocol twice. -/
def commitTwice (attempts : Nat) (protocol : Protocol) : Routine (CommitReport × CommitReport) := do
  let first ← commit attempts protocol
  let second ← commit attempts protocol
  return (first, second)

section

variable {limit : Nat} {protocol : Protocol}

theorem yields_commitAndFetch
    (fits : ∀ (instrument : Instrument) command, (instrument.answer command).2.length ≤ limit)
    (proper : protocol.IsProper) (attempts : Nat) (instrument : Instrument) (cache : Snapshot) :
    Yields Script.respond limit (commitAndFetch attempts protocol)
      (⟨false, 35, []⟩, ⟨Instrument.identity, { protocol.transmitted with state := .on }⟩)
      (.withInstrument instrument cache [] [])
      (.withInstrument (.settled protocol) ⟨Instrument.identity, { protocol.transmitted with state := .on }⟩ []
        ((Directive.ofProtocol protocol).map Directive.text ++ Setting.script)) := by
  have commits := yields_commit fits proper attempts instrument cache []
  have fetches := yields_fetch fits (Instrument.isProper_settled proper) cache
    ([] ++ (Directive.ofProtocol protocol).map Directive.text)
  rw [Instrument.transmitted_settled proper] at fetches
  exact commits.andThen (fetches.andThen (.done _ _))

theorem yields_commitTwice
    (fits : ∀ (instrument : Instrument) command, (instrument.answer command).2.length ≤ limit)
    (proper : protocol.IsProper) (attempts : Nat) (instrument : Instrument) (cache : Snapshot) :
    Yields Script.respond limit (commitTwice attempts protocol) (⟨false, 35, []⟩, ⟨false, 35, []⟩)
      (.withInstrument instrument cache [] [])
      (.withInstrument (.settled protocol) cache []
        ((Directive.ofProtocol protocol).map Directive.text ++
          (Directive.ofProtocol protocol).map Directive.text)) := by
  have commits := yields_commit fits proper attempts instrument cache []
  have again := yields_commit fits proper attempts (.settled protocol) cache
    ([] ++ (Directive.ofProtocol protocol).map Directive.text)
  exact commits.andThen (again.andThen (.done _ _))

end

/-- What runs a cycle unless the station is closed may be repeated. -/
theorem isCyclic_guarded {α : Type} {inner : Routine α}
    (inside : inner.IsCyclic False False (· = .inside) .inside) (otherwise : α) {stage : CycleStage}
    (free : stage ≠ .inside) :
    ((Routine.find Station.isOpen).andThen fun isOpen =>
      if isOpen then Routine.cycle inner else .done otherwise).IsCyclic True True (· ≠ .inside) stage := by
  intro station
  change (if station.isOpen = true then Routine.cycle inner else .done otherwise).IsCyclic True True _ stage
  split
  · refine ⟨?_, (inside.mono False.elim False.elim fun _ same => same).andThen ?_⟩
    · cases stage with
      | before => exact Or.inl rfl
      | inside => contradiction
      | after => exact Or.inr ⟨trivial, rfl⟩
    · rintro value stage rfl
      have after : CycleStage.after ≠ .inside := by decide
      exact ⟨rfl, after⟩
  · exact free

section

variable {stage : CycleStage} (attempts : Nat) (protocol : Protocol)

theorem isCyclic_commit (free : stage ≠ .inside) :
    (commit attempts protocol).IsCyclic True True (· ≠ .inside) stage :=
  isCyclic_guarded (isCyclic_sendProtocol attempts protocol) _ free

theorem isCyclic_fetch (free : stage ≠ .inside) : fetch.IsCyclic True True (· ≠ .inside) stage :=
  isCyclic_guarded isCyclic_refresh _ free

theorem isCyclic_commitAndFetch :
    (commitAndFetch attempts protocol).IsCyclic True True (· ≠ .inside) .before := by
  refine (isCyclic_commit attempts protocol (by decide)).andThen fun report stage free => ?_
  exact (isCyclic_fetch free).andThen fun snapshot stage free => free

theorem isCyclic_commitTwice :
    (commitTwice attempts protocol).IsCyclic True True (· ≠ .inside) .before := by
  refine (isCyclic_commit attempts protocol (by decide)).andThen fun first stage free => ?_
  exact (isCyclic_commit attempts protocol free).andThen fun second stage free => free

end

end Operation

namespace Bench

/-- Every run of a single caller comes to its end, and when it has, the caller has come to a value,
these commands have been written, and the far end is in this state. -/
def ComesTo {α σ : Type} (bench : Bench σ) (routine : Routine α) (value : α) (commands : List String)
    (state : σ) : Prop :=
  ∀ last : Traffic α σ, (Traffic.start bench [routine]).Reaches last →
    last.Ends ∧ (last.isFinished = true →
      (∃ time, last.callers = [.finished time value]) ∧ last.bench.commands = commands ∧
        last.bench.farEnd.state = state)

/-- What is certain is what every run comes to. -/
theorem Yields.comesTo {α σ : Type} {respond : σ → String → σ × List String} {limit : Nat}
    {before after : Scene σ} {routine : Routine α} {value : α}
    (yields : Yields respond limit routine value before after) {bench : Bench σ}
    (calm : bench.IsCalm respond limit before) (fresh : bench.IsFresh) (free : bench.cycleLine = [])
    (steady : bench.station.ticker.IsSteady)
    (cyclic : routine.IsCyclic True True (· ≠ .inside) .before) :
    bench.ComesTo routine value after.commands after.state := by
  intro last reached
  refine ⟨reached.ends fresh free steady fun other member => ?_, fun finished => ?_⟩
  · rw [List.mem_singleton.mp member]
    exact cyclic
  · obtain ⟨given, calm⟩ := yields.of_reaches calm reached finished
    exact ⟨given, calm.commands, calm.state⟩

end Bench

/-- The instrument is connected over a port that takes every command within the bound. No part of a
line has come in, and nothing has happened yet. -/
structure Station.IsUsable (station : Station) : Prop where
  journal : station.journal = []
  connected : station.connection.isOpen = true
  isOpen : station.port.isOpen = true
  succeeds : station.port.failsWrites = false
  stays : station.port.dropsOnWrite = false
  inTime : ∃ duration, station.port.writeTime = some duration ∧ duration ≤ station.link.writeBound
  steady : station.ticker.IsSteady
  framer : station.link.framer = .empty station.link.framer.limit

/-- What committing a protocol to the instrument comes to. -/
structure Bench.RoundTrips (bench : Bench Script) (attempts : Nat) (protocol : Protocol) : Prop where
  /-- Every directive is written once and acknowledged, and the instrument is set to the
  protocol. -/
  commits : bench.ComesTo (Operation.commit attempts protocol) ⟨false, 35, []⟩
    ((Directive.ofProtocol protocol).map Directive.text) (.simulating (.settled protocol))
  /-- What is fetched then is the protocol as it arrives, with the trigger on. -/
  fetches : bench.ComesTo (Operation.commitAndFetch attempts protocol)
    (⟨false, 35, []⟩, ⟨Instrument.identity, { protocol.transmitted with state := .on }⟩)
    ((Directive.ofProtocol protocol).map Directive.text ++ Setting.script) (.simulating (.settled protocol))
  /-- Committing the protocol again changes nothing. -/
  repeats : bench.ComesTo (Operation.commitTwice attempts protocol) (⟨false, 35, []⟩, ⟨false, 35, []⟩)
    ((Directive.ofProtocol protocol).map Directive.text ++ (Directive.ofProtocol protocol).map Directive.text)
    (.simulating (.settled protocol))
  /-- Every time arrives as the value of its text. -/
  times : ∀ time ∈ protocol.times, Binary64.ofText? time.scientific = some time.transmitted

namespace Station.IsUsable

variable {station : Station} {pace : Pace} {protocol : Protocol}

/-- A station that is usable faces the instrument in a calm scene. -/
theorem isCalm (usable : station.IsUsable) (inTime : pace.latency < station.link.replyBound)
    (instrument : Instrument) :
    (Bench.facing station (Script.farEnd (.simulating instrument)) pace).IsCalm Script.respond
      station.link.framer.limit (.withInstrument instrument station.cache [] []) where
  working := ⟨usable.isOpen, usable.succeeds, usable.stays, usable.inTime⟩
  connected := usable.connected
  inTime := inTime
  respond := rfl
  state := rfl
  cache := rfl
  cycleLine := rfl
  commands := by
    rw [Bench.commands, Bench.journal,
      show (Bench.facing station _ pace).station.journal = [] from usable.journal]
    rfl
  quiet := ⟨rfl, usable.framer⟩
  sendLine := rfl

/-- Whatever the instrument has been set to before, a protocol that is committed is what it is set
to, and what can be fetched from it. The digits that times lose on the way are those that their
texts do not have. -/
theorem roundTrips (usable : station.IsUsable) (inTime : pace.latency < station.link.replyBound)
    (fits : ∀ (instrument : Instrument) command,
      (instrument.answer command).2.length ≤ station.link.framer.limit)
    (proper : protocol.IsProper) (instrument : Instrument) (attempts : Nat) :
    (Bench.facing station (Script.farEnd (.simulating instrument)) pace).RoundTrips attempts protocol := by
  have calm := usable.isCalm inTime instrument
  have fresh : (Bench.facing station (Script.farEnd (.simulating instrument)) pace).IsFresh :=
    ⟨usable.journal, rfl⟩
  have before : CycleStage.before ≠ .inside := by decide
  have commits := Operation.yields_commit fits proper attempts instrument station.cache []
  have fetches := Operation.yields_commitAndFetch fits proper attempts instrument station.cache
  have repeats := Operation.yields_commitTwice fits proper attempts instrument station.cache
  constructor
  · exact commits.comesTo calm fresh rfl usable.steady (Operation.isCyclic_commit attempts protocol before)
  · exact fetches.comesTo calm fresh rfl usable.steady (Operation.isCyclic_commitAndFetch attempts protocol)
  · exact repeats.comesTo calm fresh rfl usable.steady (Operation.isCyclic_commitTwice attempts protocol)
  · exact fun time member => Binary64.ofText?_scientific (proper time member)

/-- An instrument from the factory takes the protocol of the placeholder, although answers come in
chunks of three bytes and no line may be longer than the longest reply. -/
theorem roundTrips_placeholder :
    let serial := { Settings.defaults.serial with maxLineBytes := 42 }
    let station : Station :=
      { Station.idle { Settings.defaults with serial := serial }
          { Port.ready with isOpen := true, writeTime := some 10 } with
        connection := ⟨true, "", Settings.defaults.serial.baudRate⟩ }
    station.IsUsable ∧ Snapshot.placeholder.protocol.IsProper ∧
      (Bench.facing station (Script.farEnd (.simulating .factory)) ⟨199, some 3⟩).RoundTrips
        Settings.defaults.attempts Snapshot.placeholder.protocol := by
  intro serial station
  have usable : station.IsUsable :=
    ⟨rfl, rfl, rfl, rfl, rfl, ⟨10, rfl, by decide⟩, Ticker.isSteady_start _ _, rfl⟩
  have proper : Snapshot.placeholder.protocol.IsProper := by
    unfold Protocol.IsProper
    decide +kernel
  refine ⟨usable, proper, usable.roundTrips (by decide) ?_ proper .factory Settings.defaults.attempts⟩
  exact fun instrument command => (instrument.isReply_answer command).length_le

end Station.IsUsable

end DelayGenerator
