/-
This file shows what asking for all settings comes to: every setting depends on the reply to its own query
and on nothing else, and the queries are written one after another whatever becomes of them.
-/

import Mathlib.Data.List.Basic
import DelayGenerator.Proofs.Bench.Span
import DelayGenerator.Proofs.Operation.History

namespace DelayGenerator

namespace Setting

theorem nodup_script : script.Nodup := by decide

theorem map_fst_told (outcomes : Setting → Except Fault String) :
    (told outcomes all).map Prod.fst = script := by
  rw [told, List.map_map, ← map_text_query_all]
  rfl

theorem map_stripLineEnd_script : script.map Text.stripLineEnd = script := by
  rw [← map_text_query_all, List.map_map]
  exact List.map_congr_left fun setting _ => stripLineEnd_text_query setting

/-- If the port is still open in the end and no write has taken too long, all queries are written in their order. -/
theorem filterMap_reached? {found : Option Bool} {sendings : List Sending}
    (sent : AreSent script found (some true) sendings)
    (inTime : ∀ command text, (command, .error (.writeTimedOut text)) ∉ sendings.filterMap Sending.exchange?) :
    (sendings.filterMap Sending.exchange?).filterMap Journal.reached? = script := by
  have each (item : String × Except Fault String) (member : item ∈ sendings.filterMap Sending.exchange?) :
      Journal.reached? item = some item.1 := by
    obtain ⟨command, outcome⟩ := item
    cases outcome with
    | ok reply => rfl
    | error fault =>
        cases fault with
        | notConnected =>
            obtain ⟨sending, here, _, told⟩ := Sending.exists_of_mem_exchange? member
            exact absurd (sent.closed sending here told) (by simp)
        | writeTimedOut text => exact absurd member (inTime command text)
        | _ => rfl
  calc (sendings.filterMap Sending.exchange?).filterMap Journal.reached?
      = (sendings.filterMap Sending.exchange?).map Prod.fst := by
        rw [← List.filterMap_eq_map]
        exact List.filterMap_congr each
    _ = script.map Text.stripLineEnd := (Sending.map_fst_exchange? sent.isRefused_eq).trans sent.inOrder
    _ = script := map_stripLineEnd_script

end Setting

namespace Journal

/-- What a caller has been told for different commands, is the outcome that the journal holds, or else the
command has been refused. -/
theorem Records.eq_map {refusals : Prop} {told items : List (String × Except Fault String)}
    (records : Records refusals told items) {sendings : List Sending}
    (exchanged : sendings.filterMap Sending.exchange? = items)
    (commands : sendings.map Sending.command = told.map Prod.fst) (once : (told.map Prod.fst).Nodup) :
    told = sendings.map fun sending => (sending.command, sending.outcome) := by
  induction records generalizing sendings with
  | none => rw [List.map_eq_nil_iff.mp commands, List.map_nil]
  | @exchanged told items item others inductionHypothesis =>
      obtain ⟨absent, onceLater⟩ := List.nodup_cons.mp once
      cases sendings with
      | nil => contradiction
      | cons first later =>
          obtain ⟨same, commandsLater⟩ := List.cons.inj commands
          cases first with
          | exchanged command outcome =>
              obtain ⟨rfl, exchangedLater⟩ := List.cons.inj exchanged
              rw [inductionHypothesis exchangedLater commandsLater onceLater]
              rfl
          | refused command =>
              -- The outcome would be that of a later sending of the same command.
              have member : item ∈ later.filterMap Sending.exchange? := by
                rw [show later.filterMap Sending.exchange? = item :: items from exchanged]
                exact List.mem_cons_self
              refine absurd ?_ absent
              rw [← commandsLater]
              obtain ⟨sending, here, own, _⟩ := Sending.exists_of_mem_exchange? member
              exact List.mem_map.mpr ⟨sending, here, own⟩
  | @refused told items possible command others inductionHypothesis =>
      obtain ⟨absent, onceLater⟩ := List.nodup_cons.mp once
      cases sendings with
      | nil => contradiction
      | cons first later =>
          obtain ⟨same, commandsLater⟩ := List.cons.inj commands
          cases first with
          | exchanged other outcome =>
              have member : (other, outcome) ∈ told := by
                refine others.sublist.subset ?_
                rw [← exchanged]
                exact List.mem_cons_self
              exact absurd (List.mem_map_of_mem member) (by rwa [show other = command from same])
          | refused other =>
              have exchangedLater : later.filterMap Sending.exchange? = items := exchanged
              rw [inductionHypothesis exchangedLater commandsLater onceLater, ← show other = command from same]
              rfl

end Journal

theorem Caller.eq_finished {α : Type} {caller : Caller α} (done : caller.isFinished = true) :
    ∃ time value, caller = .finished time value := by
  cases caller with
  | finished time value => exact ⟨time, value, rfl⟩
  | _ => contradiction

namespace Refresh

variable {start : Snapshot} {refusals : List Entry → Prop} {number : Nat} {journal : List Entry}

/-- Every setting has the value that the reply to its own query gives, or else the one that was cached. -/
theorem setting_result (refresh : Refresh start refusals number journal) (setting : Setting) :
    refresh.result.setting setting = (setting.told? (refresh.outcomes setting)).getD
      ((Journal.cached start refresh.before).setting setting) :=
  Snapshot.setting_noteEach _ Setting.nodup_all setting.mem_all _

end Refresh

namespace Operation

/-- Each query is sent, whatever becomes of those before it. -/
theorem ensures_askAll (queries : List Query) (snapshot : Snapshot) (isOpen? : Option Bool)
    (earlier : List Sending) :
    (askAll queries snapshot).Ensures
      (SendsNext (queries.map Query.text) isOpen? earlier fun _ _ => True) isOpen? earlier := by
  induction queries generalizing snapshot isOpen? earlier with
  | nil => exact ⟨[], (List.append_nil _).symm, .nil isOpen?, trivial⟩
  | cons query others inductionHypothesis =>
      exact Routine.ensures_ask fun sending => inductionHypothesis _ _ _

/-- Whoever asks for all settings finds the port open or closed and sends all queries. Storing the snapshot has
nothing to do with the port. -/
theorem ensures_refresh {α : Type} {holds : Option Bool → List Sending → α → Prop}
    (follow : Snapshot → Routine α) (isOpen? : Option Bool)
    (goesOn : ∀ found after? sendings snapshot, AreSent Setting.script (some found) after? sendings →
      (follow snapshot).Ensures holds after? sendings) :
    (refresh.andThen follow).Ensures holds isOpen? [] := by
  rw [Routine.refresh_andThen]
  intro station known
  have texts : Query.all.map Query.text = Setting.script := by
    rw [← Setting.map_query_all, List.map_map]
    exact Setting.map_text_query_all
  refine (ensures_askAll Query.all station.cache (some station.port.isOpen) []).andThen ?_
  rintro after? sendings snapshot ⟨_, rfl, sent, _⟩
  rw [texts] at sent
  exact goesOn station.port.isOpen after? sendings snapshot sent

end Operation

namespace Call

/-- What a call that asks for all settings has sent when it has begun at a station: all queries, if it has got to
them. -/
def HasAsked (station : Station) (after? : Option Bool) (sendings : List Sending) : Call → Answer → Prop
  | connect _ _, answer => (∃ fault, answer = .identity (.error fault)) ∨
    ∃ found, AreSent Setting.script (some found) after? sendings
  | fetch, answer =>
    if station.isOpen then ∃ found, AreSent Setting.script (some found) after? sendings
    else answer = .snapshot .placeholder
  | _, _ => False

theorem ensures_connect (port : String) (baudRate : Nat) (station : Station) (isOpen? : Option Bool) :
    (connect port baudRate).routine.Ensures
      (fun after? sendings answer => (connect port baudRate).HasAsked station after? sendings answer)
      isOpen? [] := by
  rw [routine, Operation.connect_andThen]
  intro found known
  dsimp only
  split
  next fault fails => exact Or.inl ⟨fault, rfl⟩
  next opens => exact Operation.ensures_refresh _ none fun found _ _ _ sent => Or.inr ⟨found, sent⟩

/-- What a fetch does that has found its station. -/
def fetchAt (station : Station) : Routine Answer :=
  if station.isOpen then .claim (Operation.refresh.andThen fun snapshot => .release (.done (.snapshot snapshot)))
  else .done (.snapshot .placeholder)

theorem routine_fetch : fetch.routine = .look fetchAt := by
  rw [routine, Operation.fetch_andThen]
  rfl

theorem ensures_fetchAt (station : Station) (isOpen? : Option Bool) :
    (fetchAt station).Ensures
      (fun after? sendings answer => fetch.HasAsked station after? sendings answer) isOpen? [] := by
  unfold fetchAt HasAsked
  split
  · exact Operation.ensures_refresh _ none fun found _ _ _ sent => ⟨found, sent⟩
  · rfl

/-- A snapshot has been stored by the time an answer is given. -/
def Stores (deeds : List Deed) (answer? : Option Answer) : Prop :=
  answer?.isSome → ∃ snapshot, .act (.store snapshot) ∈ deeds

theorem stores_none (deeds : List Deed) : Stores deeds none := by simp [Stores]

theorem performs_fetchAt {station : Station} (isOpen : station.isOpen = true) (past : List Deed) :
    (fetchAt station).Performs Stores past := by
  rw [fetchAt, if_pos isOpen]
  exact ⟨stores_none _, performs_refresh (stores_none _) fun snapshot _ => ⟨snapshot, by simp⟩⟩

end Call

namespace Traffic

variable {σ : Type} {first : Bench σ} {calls : List (Nat × Call)} {last : Traffic Call.Answer σ}

/-- What a caller that has finished has written are the commands of its exchanges whose write has not
failed. -/
theorem Reaches.writes_eq (fresh : first.IsFresh)
    (reached : (launch first calls).Reaches last) {number time : Nat}
    {value : Call.Answer} (finished : last.callers[number]? = some (.finished time value)) :
    Journal.writes number last.journal =
      (Journal.outcomes number last.journal).filterMap Journal.reached? := by
  refine Reaches.writes_eq_told fresh ?_ reached finished
  intro routine member
  obtain ⟨⟨delay, call⟩, _, rfl⟩ := List.mem_map.mp member
  exact call.only_routine (fun _ _ => trivial) fun _ _ => trivial

/-- Once a call that asks for all settings begins, it is clear what it ensures. -/
theorem Begins.exists_hasAsked {number : Nat} {call : Call} {before : Traffic Call.Answer σ}
    (begins : before.Begins number call.routine) (refreshes : call.refreshes = true) :
    ∃ inner, before.Begins number inner ∧ inner.Ensures
      (fun after? sendings answer => call.HasAsked before.bench.station after? sendings answer)
      (some before.bench.isOpen) [] := by
  cases call with
  | connect port baudRate => exact ⟨_, begins, Call.ensures_connect port baudRate _ _⟩
  | fetch =>
      rw [Call.routine_fetch] at begins
      exact ⟨Call.fetchAt before.bench.station, begins, Call.ensures_fetchAt _ _⟩
  | _ => contradiction

/-- A fetch that has begun at an open station has stored a snapshot by the time it is finished. -/
theorem Begins.exists_stored {number time : Nat} {value : Call.Answer} {before last : Traffic Call.Answer σ}
    (begins : before.Begins number Call.fetch.routine) (isOpen : before.bench.station.isOpen = true)
    (reached : (before.turn number).Reaches last)
    (finished : last.callers[number]? = some (.finished time value)) :
    ∃ entry ∈ last.journal, ¬ entry.event.IsUnstored number := by
  rw [Call.routine_fetch] at begins
  have begins : before.Begins number (Call.fetchAt before.bench.station) := begins
  obtain ⟨caller, here, performed⟩ := Reaches.hasPerformed begins (Call.performs_fetchAt isOpen _) reached
  cases here.symm.trans finished
  obtain ⟨snapshot, member⟩ := performed.now rfl
  obtain ⟨entry, member, deed⟩ := Journal.mem_collect.mp member
  refine ⟨entry, member, fun unstored => ?_⟩
  rw [Event.eq_did_of_deed? deed] at unstored
  exact Option.some_ne_none snapshot (unstored rfl)

/-- What asking for all settings has come to: the reply to a query decides on the setting that was asked for,
and on no other. Where it is missing or cannot be read, the setting stays as it was cached. -/
structure CostsOneEach (first : Bench σ) (calls : List (Nat × Call)) (last : Traffic Call.Answer σ)
    (number : Nat) (call : Call) (value : Call.Answer) (ended : Traffic Call.Answer σ) (sendings : List Sending)
    (refresh : Refresh first.station.cache ((launch first calls).MeetsClosed last) number last.journal) :
    Prop where
  settings : ∀ setting, refresh.result.setting setting =
    (setting.told? (refresh.outcomes setting)).getD
      ((Journal.cached first.station.cache refresh.before).setting setting)
  /-- Every query is sent, whatever becomes of those before it, unless the port is closed, which it stays until the
  call ends. -/
  sent : ∃ found, AreSent Setting.script (some found) (some ended.bench.isOpen) sendings
  told : Setting.told refresh.outcomes Setting.all =
    sendings.map fun sending => (sending.command, sending.outcome)
  /-- All outcomes that the journal holds are those of the queries that have been exchanged. -/
  exchanged : Journal.outcomes number last.journal = sendings.filterMap Sending.exchange?
  stored : last.journal =
    refresh.later ++ ⟨refresh.ended, .did number (.store refresh.result)⟩ :: refresh.past
  given : call.answer? refresh.result = some value
  /-- A failure keeps no later query from being written. -/
  writes : Journal.writes number last.journal =
    (Setting.told refresh.outcomes Setting.all).filterMap Journal.reached?
  /-- If the port is still open when the call ends, and no write has taken too long, all queries have been written,
  once each and in their order. -/
  writesAll : ended.bench.isOpen = true →
    (∀ command text, (command, .error (.writeTimedOut text)) ∉ Journal.outcomes number last.journal) →
    Journal.writes number last.journal = Setting.script

/-- Once all queries have been sent, one after another, asking for the settings has come to this. -/
theorem Reaches.costsOneEach_of_sent (fresh : first.IsFresh) (reached : (launch first calls).Reaches last)
    {number time : Nat} {call : Call} {value : Call.Answer} {ended : Traffic Call.Answer σ}
    (finished : last.callers[number]? = some (.finished time value))
    {refresh : Refresh first.station.cache ((launch first calls).MeetsClosed last) number last.journal}
    (given : call.answer? refresh.result = some value) {found : Bool} {sendings : List Sending}
    (sent : AreSent Setting.script (some found) (some ended.bench.isOpen) sendings)
    (exchanged : Journal.outcomes number last.journal = sendings.filterMap Sending.exchange?) :
    CostsOneEach first calls last number call value ended sendings refresh := by
  have told := refresh.told.eq_map exchanged.symm
    (sent.inOrder.trans (Setting.map_stripLineEnd_script.trans (Setting.map_fst_told _).symm))
    ((Setting.map_fst_told _).symm ▸ Setting.nodup_script)
  have written := reached.writes_eq fresh finished
  refine ⟨refresh.setting_result, ⟨found, sent⟩, told, exchanged, refresh.parts, given, ?_, ?_⟩
  · rw [written, refresh.told.filterMap_reached?]
  · intro isOpen inTime
    rw [isOpen] at sent
    rw [exchanged] at inTime
    rw [written, exchanged]
    exact Setting.filterMap_reached? sent inTime

/-- One bad reply costs exactly one setting. Whatever else is called for and happens to the line, all calls come
to their ends, and one that was to ask for all settings has asked for each of them, unless it has begun at a closed
station or has met a port that would not open. -/
theorem Reaches.costsOneEach (fresh : first.IsFresh) (free : first.cycleLine = [])
    (steady : first.station.ticker.IsSteady) (reached : (launch first calls).Reaches last) :
    last.Ends ∧ ∀ {number delay time : Nat} {call : Call} {value : Call.Answer},
      calls[number]? = some (delay, call) → call.refreshes = true →
      last.callers[number]? = some (.finished time value) →
      ∃ before ended, (launch first calls).Spans last number call.routine time value before ended ∧
        ((call.IsRefused ((launch first calls).Meets last) value ∧
            (call = .fetch → before.bench.station.isOpen = false)) ∨
          ∃ sendings refresh, CostsOneEach first calls last number call value ended sendings refresh) := by
  refine ⟨reached.ends fresh free steady fun routine => isCyclic_of_mem_later, ?_⟩
  intro number delay time call value called refreshes finished
  have later : (calls.map Call.later)[number]? = some (.pause delay call.routine) := by
    rw [List.getElem?_map, called]
    rfl
  obtain ⟨before, ended, after?, sendings, spans, exchanged, known, asked⟩ :=
    reached.spans_of_begins
      (fun bench after? sendings answer => call.HasAsked bench.station after? sendings answer)
      fresh later (fun begins => begins.exists_hasAsked refreshes) finished
  have onward : (before.turn number).Reaches last := spans.runs.trans spans.later
  refine ⟨before, ended, spans, ?_⟩
  obtain ⟨rest, rfl, ⟨unstored, gives⟩ | ⟨refresh, returns⟩⟩ :=
    reached.hasCome fresh free called finished refreshes
  · refine Or.inl ⟨gives value rfl, ?_⟩
    rintro rfl
    refine Bool.eq_false_iff.mpr fun isOpen => ?_
    obtain ⟨entry, member, stores⟩ := spans.begins.exists_stored isOpen onward finished
    exact stores (unstored.of_nil entry member)
  have given := returns value rfl
  have complete (sent : ∃ found, AreSent Setting.script (some found) after? sendings) :
      CostsOneEach first calls last number call value ended sendings refresh := by
    obtain ⟨found, sent⟩ := sent
    exact reached.costsOneEach_of_sent fresh finished given (sent.after known) exchanged
  cases call with
  | connect port baudRate =>
      rcases asked with ⟨fault, refused⟩ | sent
      · rw [refused] at given
        simp [Call.answer?] at given
      · exact Or.inr ⟨sendings, refresh, complete sent⟩
  | fetch =>
      by_cases isOpen : before.bench.station.isOpen = true
      · exact Or.inr ⟨sendings, refresh, complete (by rwa [Call.HasAsked, if_pos isOpen] at asked)⟩
      · have closed : before.bench.station.isOpen = false := Bool.eq_false_iff.mpr isOpen
        rw [Call.HasAsked, if_neg isOpen] at asked
        have met : (launch first calls).Meets last before.bench.station :=
          ⟨before, spans.early.beats, (Reaches.start.next spans.begins.turn).beats.trans onward.beats, rfl⟩
        exact Or.inl ⟨⟨asked, _, met, closed⟩, fun _ => closed⟩
  | _ => contradiction

/-- The reply to one query cannot be read, and there is none to another one. -/
theorem Reaches.costsOneEach_two :
    let respond : Unit → String → Unit × List String := fun _ command =>
      ((), if command = ":PULSE3:WIDTH?" then ["?"] else if command = ":PULSE5:POL?" then [] else ["1"])
    let first := Bench.opened { Settings.defaults with tickPeriod := 0 } ⟨(), respond⟩ ⟨5, none⟩
    let calls := [(0, Call.connect "port" 9600)]
    let last := (launch first calls).play
      (.turn 0 :: (List.replicate 40 [Move.elapse, .deliver 0, .turn 0]).flatten)
    last.Ends ∧ ∃ time value before ended, last.callers[0]? = some (.finished time value) ∧
      (launch first calls).Spans last 0 (Call.connect "port" 9600).routine time value before ended ∧
      ((Call.IsRefused ((launch first calls).Meets last) (.connect "port" 9600) value ∧
          (Call.connect "port" 9600 = .fetch → before.bench.station.isOpen = false)) ∨
        ∃ sendings refresh,
          CostsOneEach first calls last 0 (.connect "port" 9600) value ended sendings refresh) := by
  intro respond first calls last
  have here := Reaches.costsOneEach (Bench.isFresh_opened _ ⟨(), respond⟩ ⟨5, none⟩) rfl
    (Ticker.isSteady_start _ _) (reaches_play (launch first calls)
      (.turn 0 :: (List.replicate 40 [Move.elapse, .deliver 0, .turn 0]).flatten))
  have done : last.callers[0]?.map Caller.isFinished = some true := by decide +kernel
  obtain ⟨caller, standing, done⟩ := Option.map_eq_some_iff.mp done
  obtain ⟨time, value, rfl⟩ := Caller.eq_finished done
  obtain ⟨before, ended, costs⟩ := here.2 rfl rfl standing
  exact ⟨here.1, time, value, before, ended, standing, costs⟩

end Traffic

end DelayGenerator
