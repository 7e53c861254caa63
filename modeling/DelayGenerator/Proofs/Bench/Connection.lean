/-
This file reads off the journal how the connection stands, and how many exchanges have taken too long since the
counters were reset.
-/

import DelayGenerator.Proofs.Bench.Cache
import DelayGenerator.Proofs.Bench.Wakeup

namespace DelayGenerator

/-- What becomes of the connection. -/
inductive LinkTurn where
  | opened (port : String) (baudRate : Nat)
  | lost
  deriving DecidableEq

def Act.linkTurn? : Act → Option LinkTurn
  | .connected port baudRate => some (.opened port baudRate)
  | .disconnected => some .lost
  | _ => none

def Event.linkTurn? (event : Event) : Option LinkTurn := event.act?.bind Act.linkTurn?

/-- Where an event opens the connection. -/
def Event.opened? (event : Event) : Option (String × Nat) :=
  match event.linkTurn? with
  | some (.opened port baudRate) => some (port, baudRate)
  | _ => none

/-- The connection after a turn. -/
def LinkTurn.onConnection : LinkTurn → Connection → Connection
  | opened port baudRate, _ => ⟨true, port, baudRate⟩
  | lost, connection => { connection with isOpen := false }

/-- An act that sets the counters to zero. -/
def Act.isReset : Act → Bool
  | .resetLink => true
  | .resetCounters => true
  | _ => false

def Event.isReset (event : Event) : Bool := event.act?.any Act.isReset

/-- The write of an exchange has taken too long, or has failed. -/
def Event.isWriteTimeout : Event → Bool
  | .ended _ _ (.error (.writeTimedOut _)) => true
  | _ => false

def Event.isReplyTimeout : Event → Bool
  | .ended _ _ (.error (.replyTimedOut _)) => true
  | _ => false

theorem Event.linkTurn?_of_not_act {event : Event} (none : event.act? = none) :
    event.linkTurn? = Option.none := by
  rw [linkTurn?, none, Option.bind_none]

namespace Journal

/-- The latest of the events that a reading heeds. -/
def latest? {α : Type} (read : Event → Option α) (journal : List Entry) : Option α :=
  journal.findSome? fun entry => read entry.event

/-- The connection that a journal leaves. -/
def connection (start : Connection) : List Entry → Connection
  | [] => start
  | entry :: past =>
    match entry.event.linkTurn? with
    | some turn => turn.onConnection (connection start past)
    | none => connection start past

theorem Grows.connection_eq {journal last : List Entry}
    (grows : Grows (fun event => event.act? = none) journal last) (start : Connection) :
    connection start last = connection start journal := by
  obtain ⟨later, rfl, silent⟩ := grows
  induction later with
  | nil => rfl
  | cons entry later inductionHypothesis =>
      rw [List.cons_append, connection, Event.linkTurn?_of_not_act (silent entry List.mem_cons_self)]
      exact inductionHypothesis fun found member => silent found (List.mem_cons_of_mem entry member)

/-- The connection is open if the latest turn has opened it. -/
theorem isOpen_connection {start : Connection} (closed : start.isOpen = false) (journal : List Entry) :
    (connection start journal).isOpen = true ↔
      ∃ port baudRate, latest? Event.linkTurn? journal = some (.opened port baudRate) := by
  induction journal with
  | nil => simp [connection, latest?, closed]
  | cons entry past inductionHypothesis =>
      rw [connection, latest?, List.findSome?_cons]
      split
      next turn same => cases turn <;> simp [LinkTurn.onConnection, same]
      next same =>
        rw [same]
        exact inductionHypothesis

/-- Port and baud rate are those with which the connection has been opened last. -/
theorem place_connection (start : Connection) (journal : List Entry) :
    ((connection start journal).port, (connection start journal).baudRate) =
      (latest? Event.opened? journal).getD (start.port, start.baudRate) := by
  induction journal with
  | nil => rfl
  | cons entry past inductionHypothesis =>
      rw [connection, latest?, List.findSome?_cons, Event.opened?]
      cases entry.event.linkTurn? with
      | none => exact inductionHypothesis
      | some turn =>
          cases turn with
          | opened port baudRate => rfl
          | lost => exact inductionHypothesis

/-- A counter that some events raise by one and resets set to zero counts these events since the latest reset. -/
theorem counter_link {counter : Link → Nat} {counts : Event → Bool}
    (follows : ∀ event link, counter (event.onLink link) =
      if event.isReset then 0 else counter link + if counts event then 1 else 0)
    {start : Link} (zero : counter start = 0) (journal : List Entry) :
    counter (link start journal) =
      ((journal.map Entry.event).takeWhile fun event => !event.isReset).countP counts := by
  induction journal with
  | nil => simpa [link] using zero
  | cons entry past inductionHypothesis =>
      rw [link, follows, List.map_cons, List.takeWhile_cons, inductionHypothesis]
      cases entry.event.isReset with
      | true => rfl
      | false => exact List.countP_cons.symm

end Journal

namespace Event

theorem writeTimeouts_onLink (event : Event) (link : Link) :
    (event.onLink link).writeTimeouts =
      if event.isReset then 0 else link.writeTimeouts + if event.isWriteTimeout then 1 else 0 := by
  cases event with
  | did caller act => cases act <;> rfl
  | ended caller command outcome =>
      cases outcome with
      | ok line => rfl
      | error fault => cases fault <;> rfl
  | _ => rfl

theorem replyTimeouts_onLink (event : Event) (link : Link) :
    (event.onLink link).replyTimeouts =
      if event.isReset then 0 else link.replyTimeouts + if event.isReplyTimeout then 1 else 0 := by
  cases event with
  | did caller act => cases act <;> rfl
  | ended caller command outcome =>
      cases outcome with
      | ok line => rfl
      | error fault => cases fault <;> rfl
  | _ => rfl

end Event

/-- What a caller does to the connection is in the journal. -/
theorem Advance.connection {α σ : Type} {number : Nat} {bench after : Bench σ} {caller next : Caller α}
    (advance : Advance number bench caller after next) {start : Connection}
    (connection : bench.station.connection = Journal.connection start bench.journal) :
    after.station.connection = Journal.connection start after.journal := by
  rcases advance.act_cases with ⟨action, rfl⟩ | ⟨_, same, silent⟩
  · obtain ⟨middle, nobody, recorded⟩ := bench.journal_perform number action
    have earlier := connection.trans ((nobody.mono fun _ => Event.act?_of_nobody).connection_eq start).symm
    rw [recorded, Journal.connection, ← earlier]
    cases action <;> rfl
  · exact same.trans (connection.trans (silent.connection_eq start).symm)

namespace Traffic

variable {α σ : Type} {first : Bench σ} {routines : List (Routine α)} {last : Traffic α σ}

/-- After every run, the connection is the one that the journal leaves. -/
theorem Reaches.connection (fresh : first.IsFresh) (reached : (Traffic.start first routines).Reaches last) :
    last.bench.station.connection = Journal.connection first.station.connection last.journal := by
  refine reached.invariant
    (fun traffic => traffic.bench.station.connection =
      Journal.connection first.station.connection traffic.journal) ?_ ?_
  · have empty : (Traffic.start first routines).journal = [] := fresh.journal
    rw [empty]
    rfl
  · rintro before after beat connection
    cases beat with
    | advance here advance => exact advance.connection connection
    | deliver index possible =>
        have nothing := (before.bench.grows_deliver index).mono fun _ => Event.act?_of_nobody
        have same : (before.bench.deliver index).station.connection = before.bench.station.connection := by
          unfold Bench.deliver
          split <;> rfl
        exact same.trans (connection.trans (nothing.connection_eq _).symm)
    | tick possible => exact connection
    | elapse possible => exact connection

/-- After every run, the counters say how many exchanges have taken too long since the latest reset. -/
theorem Reaches.counters (fresh : first.IsFresh) (zeroWrites : first.station.link.writeTimeouts = 0)
    (zeroReplies : first.station.link.replyTimeouts = 0)
    (reached : (Traffic.start first routines).Reaches last) :
    last.bench.station.link.writeTimeouts =
        (last.bench.station.since Event.isReset).countP Event.isWriteTimeout ∧
      last.bench.station.link.replyTimeouts =
        (last.bench.station.since Event.isReset).countP Event.isReplyTimeout := by
  have recorded := (reached.regular fresh).recorded.link
  rw [recorded]
  exact ⟨Journal.counter_link Event.writeTimeouts_onLink zeroWrites _,
    Journal.counter_link Event.replyTimeouts_onLink zeroReplies _⟩

/-- The journal only grows. -/
theorem Reaches.journal_suffix {before after : Traffic α σ} (reached : before.Reaches after) :
    before.journal <:+ after.journal := by
  refine reached.invariant (fun traffic => before.journal <:+ traffic.journal) (List.suffix_refl _) ?_
  rintro middle after beat earlier
  cases beat with
  | advance here advance => exact earlier.trans advance.journal_suffix
  | deliver index possible =>
      obtain ⟨later, recorded, _⟩ := middle.bench.grows_deliver index
      exact earlier.trans ⟨later, recorded.symm⟩
  | tick possible => exact earlier.trans (List.suffix_cons _ _)
  | elapse possible => exact earlier

end Traffic

/-- As long as nothing resets a counter, it does not decrease. -/
theorem Station.countP_since_le {before after : Station} {later : List Entry}
    (grown : after.journal = later ++ before.journal)
    (kept : ∀ entry ∈ later, entry.event.isReset = false) (counts : Event → Bool) :
    (before.since Event.isReset).countP counts ≤ (after.since Event.isReset).countP counts := by
  have same : after.since Event.isReset = later.map Entry.event ++ before.since Event.isReset := by
    rw [since, grown, List.map_append, List.takeWhile_append_of_pos]
    · rfl
    · intro event member
      obtain ⟨entry, among, rfl⟩ := List.mem_map.mp member
      simp [kept entry among]
  rw [same, List.countP_append]
  exact Nat.le_add_left _ _

end DelayGenerator
