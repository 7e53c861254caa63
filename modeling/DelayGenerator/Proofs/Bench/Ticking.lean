/-
This file shows that the ticker keeps its own time, whatever callers do: it fires once in every period,
says how the station is at that instant, and is heard by those who are subscribed then.
-/

import DelayGenerator.Proofs.Bench.Cache
import DelayGenerator.Proofs.Bench.Schedule
import DelayGenerator.Proofs.Ticker

namespace DelayGenerator

namespace Event

/-- Whether the ticker has fired. -/
def isTick : Event → Bool
  | .ticked _ _ => true
  | _ => false

def stopsTicker : Event → Bool
  | .did _ .stopTicker => true
  | _ => false

/-- The listener that an event brings in, if the next one takes a number. -/
def newListener? (number : Nat) : Event → Option Listener
  | .did _ (.subscribe name drops) => some ⟨number, name, drops⟩
  | _ => none

/-- Whether an event drops the listener of a name. A subscription takes the place of one of the same
name. At a tick, one of those who are subscribed may drop a listener. -/
def Drops (subscribed : Listener → Prop) (name : String) : Event → Prop
  | .did _ (.subscribe other _) => other = name
  | .did _ (.unsubscribe other) => other = name
  | .ticked tick _ => ∃ listener, subscribed listener ∧ listener.drops = some (tick.count, name)
  | _ => False

/-- Whether an event has to do with the ticker. -/
def concernsTicker : Event → Bool
  | .ticked _ _ => true
  | .did _ (.subscribe _ _) => true
  | .did _ (.unsubscribe _) => true
  | .did _ .stopTicker => true
  | _ => false

theorem concernsTicker_of_not_aside {event : Event} (exchange : event.isAside = false) :
    event.concernsTicker = false := by
  cases event <;> first | rfl | contradiction

end Event

namespace Journal

/-- How often the ticker has fired. -/
def ticks (journal : List Entry) : Nat := journal.countP fun entry => entry.event.isTick

/-- How many listeners have subscribed. -/
def subscriptions (journal : List Entry) : Nat :=
  journal.countP fun entry => (entry.event.newListener? 0).isSome

def isStopped (journal : List Entry) : Bool := journal.any fun entry => entry.event.stopsTicker

theorem ticks_ticked (time : Nat) (tick : Tick) (heard : List Heard) (past : List Entry) :
    ticks (⟨time, .ticked tick heard⟩ :: past) = ticks past + 1 := List.countP_cons_of_pos rfl

theorem subscriptions_subscribe (time caller : Nat) (name : String) (drops : Option (Nat × String))
    (past : List Entry) :
    subscriptions (⟨time, .did caller (.subscribe name drops)⟩ :: past) = subscriptions past + 1 :=
  List.countP_cons_of_pos rfl

/-- A listener is subscribed from its subscription on until it is dropped. -/
def IsSubscribed : List Entry → Listener → Prop
  | [], _ => False
  | entry :: past, listener =>
    entry.event.newListener? (subscriptions past) = some listener ∨
      IsSubscribed past listener ∧ ¬ entry.event.Drops (IsSubscribed past) listener.name

end Journal

open Journal (ticks subscriptions isStopped IsSubscribed)

/-- A ticker that has started at an instant is as the journal tells. -/
structure Ticker.IsToldBy (started period : Nat) (journal : List Entry) (ticker : Ticker) : Prop where
  every : ticker.period = period
  count : ticker.count = ticks journal
  number : ticker.nextId = subscriptions journal
  subscribed : ∀ listener, listener ∈ ticker.listeners ↔ IsSubscribed journal listener
  ordered : ticker.IsOrdered
  due : ticker.due =
    if isStopped journal then none else some (started + (ticks journal + 1) * period)

namespace Ticker.IsToldBy

variable {started period : Nat} {journal : List Entry} {ticker : Ticker}

theorem start (positive : 0 < period) : (Ticker.start period started).IsToldBy started period [] where
  every := rfl
  count := rfl
  number := rfl
  subscribed listener := by simp [Ticker.start, IsSubscribed]
  ordered := .start _ _
  due := by simp [Ticker.start, Nat.ne_of_gt positive, isStopped, ticks]

/-- What does not concern the ticker leaves it as it is. -/
theorem aside (told : ticker.IsToldBy started period journal) {entry : Entry}
    (foreign : entry.event.concernsTicker = false) : ticker.IsToldBy started period (entry :: journal) := by
  have silent : entry.event.isTick = false ∧ entry.event.stopsTicker = false ∧
      (∀ number, entry.event.newListener? number = none) ∧
      ∀ subscribed name, ¬ entry.event.Drops subscribed name := by
    obtain ⟨time, event⟩ := entry
    cases event with
    | did caller act => cases act <;> first | contradiction | exact ⟨rfl, rfl, fun _ => rfl, fun _ _ => id⟩
    | _ => first | contradiction | exact ⟨rfl, rfl, fun _ => rfl, fun _ _ => id⟩
  obtain ⟨noTick, noStop, nobody, noDrop⟩ := silent
  have sameTicks : ticks (entry :: journal) = ticks journal := by simp [ticks, noTick]
  have sameStop : isStopped (entry :: journal) = isStopped journal := by simp [isStopped, noStop]
  constructor
  · exact told.every
  · exact told.count.trans sameTicks.symm
  · exact told.number.trans (by simp [subscriptions, nobody])
  · intro listener
    rw [told.subscribed, IsSubscribed, nobody]
    simp [noDrop]
  · exact told.ordered
  · rw [told.due, sameTicks, sameStop]

theorem grows (told : ticker.IsToldBy started period journal) {last : List Entry}
    (grows : Journal.Grows (fun event => event.concernsTicker = false) journal last) :
    ticker.IsToldBy started period last := by
  obtain ⟨later, rfl, foreign⟩ := grows
  induction later with
  | nil => exact told
  | cons entry later inductionHypothesis =>
      have earlier := inductionHypothesis fun found member =>
        foreign found (List.mem_cons_of_mem entry member)
      exact earlier.aside (foreign entry List.mem_cons_self)

variable {time caller : Nat} {name : String}

theorem subscribe (told : ticker.IsToldBy started period journal) (drops : Option (Nat × String)) :
    (ticker.subscribe name drops).IsToldBy started period
      (⟨time, .did caller (.subscribe name drops)⟩ :: journal) := by
  constructor
  · exact told.every
  · exact told.count
  · rw [Journal.subscriptions_subscribe, ← told.number]
    rfl
  · intro listener
    change listener ∈ without name ticker.listeners ++ [⟨ticker.nextId, name, drops⟩] ↔
      some ⟨subscriptions journal, name, drops⟩ = some listener ∨
        IsSubscribed journal listener ∧ ¬ name = listener.name
    rw [List.mem_append, mem_without, told.subscribed, told.number, List.mem_singleton, Option.some.injEq,
      or_comm, eq_comm (a := name), eq_comm (a := listener)]
  · exact told.ordered.subscribe name drops
  · exact told.due

theorem unsubscribe (told : ticker.IsToldBy started period journal) :
    (ticker.unsubscribe name).IsToldBy started period
      (⟨time, .did caller (.unsubscribe name)⟩ :: journal) := by
  constructor
  · exact told.every
  · exact told.count
  · exact told.number
  · intro listener
    change listener ∈ without name ticker.listeners ↔
      none = some listener ∨ IsSubscribed journal listener ∧ ¬ name = listener.name
    rw [mem_without, told.subscribed, eq_comm (a := name)]
    simp
  · exact told.ordered.unsubscribe name
  · exact told.due

theorem stop (told : ticker.IsToldBy started period journal) :
    ticker.stop.IsToldBy started period (⟨time, .did caller .stopTicker⟩ :: journal) := by
  constructor
  · exact told.every
  · exact told.count
  · exact told.number
  · intro listener
    change listener ∈ ticker.listeners ↔
      none = some listener ∨ IsSubscribed journal listener ∧ ¬ False
    rw [told.subscribed]
    simp
  · exact told.ordered.stop
  · rfl

/-- Who hears a tick at which a listener drops it, hears no later one. -/
theorem fire (told : ticker.IsToldBy started period journal) (status : Status) (heard : List Heard) :
    ticker.fire.IsToldBy started period (⟨time, .ticked (ticker.tick status) heard⟩ :: journal) := by
  constructor
  · exact told.every
  · rw [Journal.ticks_ticked, ← told.count]
    rfl
  · exact told.number
  · intro listener
    change listener ∈ ticker.listeners.foldl (react (ticker.count + 1)) ticker.listeners ↔
      none = some listener ∨ IsSubscribed journal listener ∧
        ¬ ∃ other, IsSubscribed journal other ∧ other.drops = some (ticker.count + 1, listener.name)
    simp only [mem_foldl_react, told.subscribed, reduceCtorEq, false_or, not_exists, not_and, ne_eq]
  · exact told.ordered.fire
  · rw [Journal.ticks_ticked]
    change ticker.due.map (· + ticker.period) =
      if isStopped journal then none else some (started + (ticks journal + 1 + 1) * period)
    rw [told.due, told.every]
    split
    · rfl
    · have next : started + (ticks journal + 1) * period + period =
          started + (ticks journal + 1 + 1) * period := by
        rw [Nat.succ_mul (ticks journal + 1), Nat.add_assoc]
      rw [Option.map_some, next]

end Ticker.IsToldBy

namespace Journal

/-- What follows from a property of an entry with the earlier ones, holds where the property does. -/
theorem Every.mono {property other : List Entry → Entry → Prop} {journal : List Entry}
    (every : Every property journal) (implies : ∀ past entry, property past entry → other past entry) :
    Every other journal := by
  induction journal with
  | nil => trivial
  | cons entry past inductionHypothesis => exact ⟨implies _ _ every.1, inductionHypothesis every.2⟩

/-- A property that every new entry has because of its kind, goes on to hold of every entry. -/
theorem Every.grows {property : List Entry → Entry → Prop} {kind : Event → Prop} {journal last : List Entry}
    (every : Every property journal) (grows : Grows kind journal last)
    (holds : ∀ past entry, kind entry.event → property past entry) : Every property last := by
  obtain ⟨later, rfl, kinds⟩ := grows
  induction later with
  | nil => exact every
  | cons entry later inductionHypothesis =>
      refine ⟨holds _ _ (kinds entry List.mem_cons_self), ?_⟩
      exact inductionHypothesis fun found member => kinds found (List.mem_cons_of_mem entry member)

theorem Grows.ticks_eq {journal last : List Entry}
    (grows : Grows (fun event => event.isTick = false) journal last) : ticks last = ticks journal := by
  obtain ⟨later, rfl, others⟩ := grows
  have none : later.countP (fun entry => entry.event.isTick) = 0 :=
    List.countP_eq_zero.mpr fun entry member => by simp [others entry member]
  rw [ticks, List.countP_append, none, Nat.zero_add]
  rfl

end Journal

theorem Event.isTick_of_foreign {event : Event} (foreign : event.concernsTicker = false) :
    event.isTick = false := by
  cases event <;> first | rfl | contradiction

namespace Bench

variable {σ : Type} {bench : Bench σ}

/-- What a caller does at the station is told by the journal. -/
theorem isToldBy_perform {started period : Nat}
    (told : bench.station.ticker.IsToldBy started period bench.journal) (caller : Nat) (act : Act) :
    (bench.onStation (Station.perform caller act)).station.ticker.IsToldBy started period
      (bench.onStation (Station.perform caller act)).journal := by
  cases act with
  | subscribe name drops => exact told.subscribe drops
  | unsubscribe name => exact told.unsubscribe
  | stopTicker => exact told.stop
  | receive bytes =>
      have received : bench.station.ticker.IsToldBy started period
          (⟨bench.clock, .received (bench.station.link.completed bytes)⟩ :: bench.journal) := told.aside rfl
      exact received.aside rfl
  | _ => exact told.aside rfl

/-- No act makes the ticker fire. -/
theorem quiet_perform (caller : Nat) (act : Act) :
    Journal.Grows (fun event => event.isTick = false) bench.journal
      (bench.onStation (Station.perform caller act)).journal := by
  cases act with
  | receive bytes =>
      have received : Journal.Grows (fun event => event.isTick = false) bench.journal
          (⟨bench.clock, .received (bench.station.link.completed bytes)⟩ :: bench.journal) := .one (by rfl) _
      exact received.trans (.one (by rfl) _)
  | _ => exact .one (by rfl) _

/-- What comes in does not concern the ticker. -/
theorem ticker_deliver (index : Nat) :
    (bench.deliver index).station.ticker = bench.station.ticker ∧
      Journal.Grows (fun event => event.concernsTicker = false) bench.journal
        (bench.deliver index).journal := by
  unfold deliver
  split
  · exact ⟨rfl, .one (by rfl) _⟩
  · exact ⟨rfl, .one (by rfl) _⟩
  · exact ⟨rfl, .refl _ _⟩
  · exact ⟨rfl, .refl _ _⟩

end Bench

namespace Advance

variable {α σ : Type} {number : Nat} {bench after : Bench σ} {caller next : Caller α}

/-- A caller does nothing to the ticker but by its acts. -/
theorem ticker_cases (advance : Advance number bench caller after next) :
    (∃ act, after = bench.onStation (Station.perform number act)) ∨
      after.station.ticker = bench.station.ticker ∧
        Journal.Grows (fun event => event.concernsTicker = false) bench.journal after.journal := by
  cases advance.kind with
  | act action follow => exact Or.inl ⟨action, rfl⟩
  | enlist follow => exact Or.inr ⟨rfl, .refl _ _⟩
  | claim first => exact Or.inr ⟨rfl, .one (by rfl) _⟩
  | release follow => exact Or.inr ⟨rfl, .one (by rfl) _⟩
  | exchange exchanges same =>
      exact Or.inr ⟨exchanges.ticker, exchanges.grows.mono fun _ own => Event.concernsTicker_of_not_aside own.2⟩

theorem isToldBy (advance : Advance number bench caller after next) {started period : Nat}
    (told : bench.station.ticker.IsToldBy started period bench.journal) :
    after.station.ticker.IsToldBy started period after.journal := by
  rcases advance.ticker_cases with ⟨act, rfl⟩ | ⟨same, grows⟩
  · exact Bench.isToldBy_perform told number act
  · rw [same]
    exact told.grows grows

theorem quiet (advance : Advance number bench caller after next) :
    Journal.Grows (fun event => event.isTick = false) bench.journal after.journal := by
  rcases advance.ticker_cases with ⟨act, rfl⟩ | ⟨_, grows⟩
  · exact Bench.quiet_perform number act
  · exact grows.mono fun _ => Event.isTick_of_foreign

/-- No caller puts off the next firing. -/
theorem due_of_due (advance : Advance number bench caller after next) {due : Nat}
    (coming : after.station.ticker.due = some due) : bench.station.ticker.due = some due := by
  rcases advance.ticker_cases with ⟨act, rfl⟩ | ⟨same, _⟩
  · cases act <;> first | exact coming | contradiction
  · rw [← same]
    exact coming

end Advance

/-- A tick comes in its turn and on time, says how the station is, and is heard once by each of those
who are subscribed, in the order of their subscriptions. -/
structure Tick.IsInTime (started period : Nat) (start : Snapshot) (seen : Station → Prop)
    (past : List Entry) (time : Nat) (tick : Tick) (heard : List Heard) : Prop where
  count : tick.count = ticks past + 1
  onTime : time = started + tick.count * period
  running : isStopped past = false
  /-- Whether the station is open at that instant. -/
  isOpen : ∃ station, seen station ∧ station.journal = past ∧ station.clock = time ∧
    tick.status.isOpen = station.isOpen
  /-- Whether the trigger runs as far as the settings tell that have been asked for last. -/
  isRunning : tick.status.isRunning = (Journal.cached start past).protocol.state.isOn
  heard : ∃ listeners : List Listener, (∀ listener, listener ∈ listeners ↔ IsSubscribed past listener) ∧
    (listeners.Pairwise fun first second => first.id < second.id) ∧
    (listeners.map Listener.name).Nodup ∧
    heard = listeners.map fun listener => ⟨listener.name, tick⟩

/-- What has been seen, has been seen among more, too. -/
theorem Tick.IsInTime.mono {started period : Nat} {start : Snapshot} {seen more : Station → Prop}
    {past : List Entry} {time : Nat} {tick : Tick} {heard : List Heard}
    (inTime : tick.IsInTime started period start seen past time heard)
    (widens : ∀ station, seen station → more station) :
    tick.IsInTime started period start more past time heard := by
  obtain ⟨station, found, same⟩ := inTime.isOpen
  exact { inTime with isOpen := ⟨station, widens _ found, same⟩ }

namespace Traffic

variable {α σ : Type}

/-- Every firing so far has been in time, and the next one is not late. -/
structure IsTicking (first : Traffic α σ) (started period : Nat) (start : Snapshot)
    (traffic : Traffic α σ) : Prop where
  told : traffic.bench.station.ticker.IsToldBy started period traffic.journal
  fired : started + ticks traffic.journal * period ≤ traffic.clock
  coming : ∀ due, traffic.bench.station.ticker.due = some due → traffic.clock ≤ due
  inTime : Journal.Every (fun past entry => ∀ tick heard, entry.event = .ticked tick heard →
    tick.IsInTime started period start (first.Meets traffic) past entry.time heard) traffic.journal

namespace IsTicking

variable {first before after : Traffic α σ} {started period : Nat} {start : Snapshot}

/-- What holds of the firings so far, goes on to hold while the ticker does not fire. -/
theorem keep (ticking : IsTicking first started period start before)
    (beat : before.Beat after)
    (told : after.bench.station.ticker.IsToldBy started period after.journal)
    (quiet : Journal.Grows (fun event => event.isTick = false) before.journal after.journal)
    (later : before.clock ≤ after.clock)
    (coming : ∀ due, after.bench.station.ticker.due = some due → after.clock ≤ due) :
    IsTicking first started period start after where
  told := told
  fired := by
    rw [quiet.ticks_eq]
    exact Nat.le_trans ticking.fired later
  coming := coming
  inTime := by
    have widened : Journal.Every (fun past entry => ∀ tick heard, entry.event = .ticked tick heard →
        tick.IsInTime started period start (first.Meets after) past entry.time heard) before.journal :=
      ticking.inTime.mono fun past entry inTime tick heard same =>
        (inTime tick heard same).mono fun _ meets => meets.beat beat
    refine widened.grows quiet fun past entry silent tick heard same => ?_
    rw [same] at silent
    contradiction

/-- The ticker fires when its next period is over, and not later. -/
theorem tick (ticking : IsTicking first started period start before)
    (beats : Relation.ReflTransGen Beat first before)
    (cached : before.bench.station.cache = Journal.cached start before.journal)
    (possible : before.can .tick = true) :
    IsTicking first started period start (before.make .tick) := by
  have told := ticking.told
  obtain ⟨due, coming, come⟩ : ∃ due, before.bench.station.ticker.due = some due ∧ due ≤ before.clock := by
    change before.bench.station.ticker.isDue before.clock = true at possible
    unfold Ticker.isDue at possible
    split at possible
    next due same => exact ⟨due, same, by simpa using possible⟩
    next => contradiction
  have now : before.clock = due := Nat.le_antisymm (ticking.coming due coming) come
  obtain ⟨running, next⟩ : isStopped before.journal = false ∧
      started + (ticks before.journal + 1) * period = due := by
    have asTold := told.due.symm.trans coming
    split at asTold
    next => contradiction
    next running => exact ⟨by simpa using running, Option.some.inj asTold⟩
  have here : first.Meets (before.make .tick) before.bench.station :=
    ⟨before, beats, .single (.tick possible), rfl⟩
  have recorded : (before.make .tick).journal =
      ⟨before.clock, .ticked (before.bench.station.ticker.tick before.bench.station.status)
        (before.bench.station.ticker.hearing before.bench.station.status)⟩ :: before.journal := rfl
  refine ⟨told.fire _ _, ?_, ?_, ?_⟩
  · rw [recorded, Journal.ticks_ticked, next]
    exact come
  · intro later same
    change before.bench.station.ticker.due.map (· + before.bench.station.ticker.period) = some later at same
    rw [coming, Option.map_some, Option.some.injEq] at same
    change before.clock ≤ later
    omega
  · rw [recorded]
    refine ⟨?_, ?_⟩
    · rintro tick heard same
      cases same
      refine ⟨congrArg (· + 1) told.count, ?_, running, ⟨_, here, rfl, rfl, rfl⟩, ?_, ?_⟩
      · change before.clock = started + (before.bench.station.ticker.count + 1) * period
        rw [told.count, next, now]
      · rw [← cached]
        rfl
      · exact ⟨_, told.subscribed, told.ordered.numbers, told.ordered.names, rfl⟩
    · refine ticking.inTime.mono fun past entry inTime tick heard same => ?_
      exact (inTime tick heard same).mono fun _ meets => meets.beat (.tick possible)

theorem beat (ticking : IsTicking first started period start before)
    (beats : Relation.ReflTransGen Beat first before)
    (cached : before.bench.station.cache = Journal.cached start before.journal)
    (beat : before.Beat after) : IsTicking first started period start after := by
  cases beat with
  | @advance index caller next bench here advance =>
      have sameClock : bench.clock = before.bench.clock := advance.clock_eq
      refine ticking.keep (.advance here advance) (advance.isToldBy ticking.told) advance.quiet ?_ ?_
      · exact Nat.le_of_eq sameClock.symm
      · intro due coming
        change bench.clock ≤ due
        rw [sameClock]
        exact ticking.coming due (advance.due_of_due coming)
  | deliver index possible =>
      obtain ⟨same, grows⟩ := @Bench.ticker_deliver σ before.bench index
      have sameClock := before.bench.clock_deliver index
      refine ticking.keep (.deliver index possible) ?_ (grows.mono fun _ => Event.isTick_of_foreign) ?_ ?_
      · change (before.bench.deliver index).station.ticker.IsToldBy started period _
        rw [same]
        exact ticking.told.grows grows
      · exact Nat.le_of_eq sameClock.symm
      · intro due coming
        change (before.bench.deliver index).clock ≤ due
        rw [sameClock]
        exact ticking.coming due (same ▸ coming)
  | tick possible => exact ticking.tick beats cached possible
  | elapse possible =>
      obtain ⟨time, made, later, _, least⟩ := clock_elapse possible
      refine ticking.keep (.elapse possible) ticking.told (.refl _ _) ?_ ?_
      · rw [made]
        exact Nat.le_of_lt later
      · rw [made]
        intro due coming
        exact least due (mem_deadlines.mpr (Or.inr (Or.inr coming)))

/-- Until it is stopped, the next firing is not late. -/
theorem clock_le (ticking : IsTicking first started period start before)
    (running : isStopped before.journal = false) :
    before.clock ≤ started + (ticks before.journal + 1) * period := by
  have due : before.bench.station.ticker.due = some (started + (ticks before.journal + 1) * period) := by
    rw [ticking.told.due, running]
    rfl
  exact ticking.coming _ due

/-- Nothing has fired since the ticker has been stopped. -/
theorem quiet_of_stopped (ticking : IsTicking first started period start before) {later past : List Entry}
    {time caller : Nat} (parts : before.journal = later ++ ⟨time, .did caller .stopTicker⟩ :: past) :
    ∀ entry ∈ later, entry.event.isTick = false := by
  intro entry member
  obtain ⟨when, event⟩ := entry
  cases event with
  | ticked tick heard =>
      obtain ⟨after, between, rfl⟩ := List.append_of_mem member
      have inTime := ticking.inTime
      rw [parts, List.append_assoc, List.cons_append] at inTime
      have running := (inTime.of_append.1 tick heard rfl).running
      simp [Journal.isStopped, Event.stopsTicker] at running
  | _ => rfl

end IsTicking

theorem isTicking_start {first : Bench σ} (fresh : first.IsFresh) {period : Nat} (positive : 0 < period)
    (started : first.station.ticker = .start period first.clock) (routines : List (Routine α)) :
    IsTicking (start first routines) first.clock period first.station.cache (start first routines) := by
  have empty : (start first routines).journal = [] := fresh.journal
  refine ⟨?_, ?_, ?_, ?_⟩
  · rw [empty]
    change first.station.ticker.IsToldBy _ _ _
    rw [started]
    exact .start positive
  · rw [empty]
    exact Nat.le_of_eq (by simp [ticks]; rfl)
  · intro due coming
    change first.station.ticker.due = some due at coming
    rw [started, Ticker.start, if_neg (by simpa using Nat.ne_of_gt positive)] at coming
    cases coming
    exact Nat.le_add_right _ _
  · rw [empty]
    trivial

theorem Reaches.isTicking {first : Bench σ} (fresh : first.IsFresh) {period : Nat} (positive : 0 < period)
    (started : first.station.ticker = .start period first.clock) {routines : List (Routine α)}
    {last : Traffic α σ} (reached : (Traffic.start first routines).Reaches last) :
    IsTicking (Traffic.start first routines) first.clock period first.station.cache last := by
  -- What callers have last asked for is known from the beats before, so these go along.
  have known := reached.invariant (fun traffic =>
    Relation.ReflTransGen Beat (Traffic.start first routines) traffic ∧
      IsTicking (Traffic.start first routines) first.clock period first.station.cache traffic)
    ⟨.refl, isTicking_start fresh positive started routines⟩ ?_
  · exact known.2
  · rintro before after beat ⟨beats, ticking⟩
    exact ⟨beats.tail beat, ticking.beat beats (cached_of_beats fresh beats) beat⟩

/-- What a run tells of a ticker that has started with it. -/
structure TicksInTime (first : Bench σ) (routines : List (Routine α)) (period : Nat)
    (last : Traffic α σ) : Prop where
  inTime : ∀ {later past : List Entry} {time : Nat} {tick : Tick} {heard : List Heard},
    last.journal = later ++ ⟨time, .ticked tick heard⟩ :: past →
    tick.IsInTime first.clock period first.station.cache ((start first routines).Meets last) past time heard
  counted : last.bench.station.ticker.count = ticks last.journal
  /-- No firing has been left out. -/
  complete : isStopped last.journal = false →
    first.clock + ticks last.journal * period ≤ last.clock ∧
    last.clock ≤ first.clock + (ticks last.journal + 1) * period ∧
    (¬ period ∣ last.clock - first.clock →
      last.bench.station.ticker.count = (last.clock - first.clock) / period)
  /-- Who unsubscribes leaves all others subscribed. -/
  dropped : ∀ {later past : List Entry} {time caller : Nat} {name : String},
    last.journal = later ++ ⟨time, .did caller (.unsubscribe name)⟩ :: past → ∀ listener,
    IsSubscribed (⟨time, .did caller (.unsubscribe name)⟩ :: past) listener ↔
      IsSubscribed past listener ∧ listener.name ≠ name
  /-- Once it has been stopped, the ticker does not fire and counts no further. -/
  stopped : ∀ {later past : List Entry} {time caller : Nat},
    last.journal = later ++ ⟨time, .did caller .stopTicker⟩ :: past →
    (∀ entry ∈ later, entry.event.isTick = false) ∧ last.bench.station.ticker.count = ticks past

/-- Whatever callers do, the ticker fires once in every period until it is stopped. -/
theorem Reaches.ticksInTime {first : Bench σ} (fresh : first.IsFresh) {period : Nat} (positive : 0 < period)
    (started : first.station.ticker = .start period first.clock) {routines : List (Routine α)}
    {last : Traffic α σ} (reached : (Traffic.start first routines).Reaches last) :
    TicksInTime first routines period last := by
  have ticking := reached.isTicking fresh positive started
  constructor
  · intro later past time tick heard parts
    have inTime := ticking.inTime
    rw [parts] at inTime
    exact inTime.of_append.1 tick heard rfl
  · exact ticking.told.count
  · intro running
    have late := ticking.clock_le running
    refine ⟨ticking.fired, late, fun between => ?_⟩
    have early := ticking.fired
    have apart : last.clock - first.clock ≠ (ticks last.journal + 1) * period := fun same =>
      between (same ▸ Nat.dvd_mul_left _ _)
    rw [ticking.told.count]
    refine (Nat.div_eq_of_lt_le ?_ ?_).symm <;> omega
  · intro later past time caller name parts listener
    change none = some listener ∨ IsSubscribed past listener ∧ ¬ name = listener.name ↔ _
    rw [eq_comm (a := name)]
    simp
  · intro later past time caller parts
    have quiet := ticking.quiet_of_stopped parts
    have grows : Journal.Grows (fun event => event.isTick = false) past last.journal :=
      (Journal.Grows.one (by rfl) past).trans ⟨later, parts, quiet⟩
    exact ⟨quiet, ticking.told.count.trans grows.ticks_eq⟩

/-- A listener drops another one at the second tick while a command goes unanswered, and the ticker is
stopped after the fourth. -/
theorem Reaches.ticksInTime_four :
    let first := Bench.opened { Settings.defaults with tickPeriod := 100 }
      (⟨(), fun _ _ => ((), [])⟩ : FarEnd Unit) ⟨5, none⟩
    let routines : List (Routine Unit) :=
      [.act (.subscribe "steady" (some (2, "brief"))) (.act (.subscribe "brief" none) (.done ())),
        .ask "*IDN?" fun _ => .done (), .pause 450 (.act .stopTicker (.pause 100 (.done ())))]
    let round : List Move := [.elapse, .tick, .turn 1, .turn 2]
    let last := (Traffic.start first routines).play
      ([.turn 0, .turn 1, .turn 2] ++ (List.replicate 7 round).flatten)
    TicksInTime first routines 100 last ∧ last.clock = 550 ∧ ticks last.journal = 4 ∧
      last.bench.station.heard.map Heard.name =
        ["steady", "brief", "steady", "brief", "steady", "steady"] :=
  ⟨Reaches.ticksInTime (Bench.isFresh_opened _ _ _) (by decide) rfl (reaches_play _ _), by decide +kernel,
    by decide +kernel, by decide +kernel⟩

end Traffic

end DelayGenerator
