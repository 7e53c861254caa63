/-
This file follows a caller that is alone at a bench whose port takes everything at once. It says what the
caller can bring to its end, and in which state the bench is then.
-/

import DelayGenerator.Proofs.Bench.Clock
import DelayGenerator.Proofs.Bench.Schedule
import DelayGenerator.Proofs.Bench.Termination
import DelayGenerator.Proofs.Line.ReplyQueue

namespace DelayGenerator

namespace Routine

variable {α β γ : Type}

theorem andThen_done (routine : Routine α) : routine.andThen .done = routine := by
  induction routine with
  | done value => rfl
  | look next inductionHypothesis => simp only [andThen, inductionHypothesis]
  | act action next inductionHypothesis => simp only [andThen, inductionHypothesis]
  | ask command next inductionHypothesis => simp only [andThen, inductionHypothesis]
  | transmit bytes bound next inductionHypothesis => simp only [andThen, inductionHypothesis]
  | pause duration next inductionHypothesis => simp only [andThen, inductionHypothesis]
  | rest next inductionHypothesis => simp only [andThen, inductionHypothesis]
  | claim next inductionHypothesis => simp only [andThen, inductionHypothesis]
  | release next inductionHypothesis => simp only [andThen, inductionHypothesis]

theorem andThen_assoc (routine : Routine α) (second : α → Routine β) (third : β → Routine γ) :
    (routine.andThen second).andThen third =
      routine.andThen fun value => (second value).andThen third := by
  induction routine with
  | done value => rfl
  | look next inductionHypothesis => simp only [andThen, inductionHypothesis]
  | act action next inductionHypothesis => simp only [andThen, inductionHypothesis]
  | ask command next inductionHypothesis => simp only [andThen, inductionHypothesis]
  | transmit bytes bound next inductionHypothesis => simp only [andThen, inductionHypothesis]
  | pause duration next inductionHypothesis => simp only [andThen, inductionHypothesis]
  | rest next inductionHypothesis => simp only [andThen, inductionHypothesis]
  | claim next inductionHypothesis => simp only [andThen, inductionHypothesis]
  | release next inductionHypothesis => simp only [andThen, inductionHypothesis]

end Routine

namespace Traffic

variable {α σ : Type}

/-- The traffic of one caller. -/
def alone (state : Bench σ × Caller α) : Traffic α σ := ⟨state.1, [state.2]⟩

end Traffic

namespace Ticker

/-- A ticker that fires at all has a period. -/
def IsSteady (ticker : Ticker) : Prop := ∀ due, ticker.due = some due → 0 < ticker.period

theorem isSteady_start (period now : Nat) : (start period now).IsSteady := by
  intro due fires
  unfold start at fires ⊢
  dsimp only at fires ⊢
  split at fires
  · contradiction
  · simp_all [Nat.pos_iff_ne_zero]

theorem IsSteady.fire {ticker : Ticker} (steady : ticker.IsSteady) : ticker.fire.IsSteady := by
  intro due fires
  obtain ⟨earlier, before, _⟩ := Option.map_eq_some_iff.mp fires
  exact steady earlier before

theorem isDue_iff {ticker : Ticker} {now : Nat} :
    ticker.isDue now = true ↔ ∃ due, ticker.due = some due ∧ due ≤ now := by
  unfold isDue
  split <;> simp_all

end Ticker

namespace Delivery

/-- What is on its way when the first chunk of a delivery has come in. -/
def behind (due : Nat) (chunks : List (List UInt8)) (others : List Delivery) : List Delivery :=
  if chunks.isEmpty then others else ⟨due, chunks⟩ :: others

end Delivery

namespace Bench

variable {α β σ : Type}

/-- A caller that is alone can bring a routine to its end with a value, whatever it does next. -/
def Completes (routine : Routine α) (value : α) (bench after : Bench σ) : Prop :=
  ∀ (β : Type) (follow : α → Routine β),
    (Traffic.alone (Caller.run 0 (routine.andThen follow) bench)).Reaches
      (Traffic.alone (Caller.run 0 (follow value) after))

/-- The bench once its only caller has begun a cycle. -/
def claimed (bench : Bench σ) : Bench σ := { bench with cycleLine := [0] }.record (.claimed 0)

/-- The bench once its only caller has ended its cycle. -/
def released (bench : Bench σ) : Bench σ :=
  { bench with cycleLine := bench.cycleLine.tail }.record (.released 0)

namespace Completes

theorem done (value : α) (bench : Bench σ) : Completes (.done value) value bench bench :=
  fun _ _ => .start

theorem andThen {routine : Routine α} {value : α} {bench middle after : Bench σ}
    (first : Completes routine value bench middle) {following : α → Routine β} {result : β}
    (second : Completes (following value) result middle after) :
    Completes (routine.andThen following) result bench after := by
  intro γ follow
  rw [Routine.andThen_assoc]
  exact (first γ fun value => (following value).andThen follow).trans (second γ follow)

/-- Another routine that runs in the same way completes as well. -/
theorem of_run {routine other : Routine α} {value : α} {bench changed after : Bench σ}
    (completes : Completes routine value bench after)
    (same : ∀ (β : Type) (follow : α → Routine β),
      Caller.run 0 (other.andThen follow) changed = Caller.run 0 (routine.andThen follow) bench) :
    Completes other value changed after := by
  intro β follow
  rw [same]
  exact completes β follow

/-- A caller goes on with the outcome of its exchange. -/
theorem ask {command : String} {outcome : Except Fault String} {bench middle after : Bench σ}
    (first : Completes (.send command) outcome bench middle)
    {next : Except Fault String → Routine α} {value : α}
    (second : Completes (next outcome) value middle after) :
    Completes (.ask command next) value bench after :=
  first.andThen second

theorem look {next : Station → Routine α} {value : α} {bench after : Bench σ}
    (later : Completes (next bench.station) value bench after) :
    Completes (.look next) value bench after :=
  later.of_run fun _ _ => rfl

theorem claim {routine : Routine α} {value : α} {bench after : Bench σ} (free : bench.cycleLine = [])
    (later : Completes routine value bench.claimed after) :
    Completes (.claim routine) value bench after := by
  apply later.of_run
  intro β follow
  simp only [Routine.andThen, Caller.run, free]
  rfl

theorem release {routine : Routine α} {value : α} {bench after : Bench σ}
    (later : Completes routine value bench.released after) :
    Completes (.release routine) value bench after :=
  later.of_run fun _ _ => rfl

/-- What a caller that is alone can bring to its end is a run of its routine. -/
theorem reaches {routine : Routine α} {value : α} {bench after : Bench σ}
    (completes : Completes routine value bench after) :
    (Traffic.start bench [routine]).Reaches ⟨after, [.finished after.clock value]⟩ := by
  have started : (Traffic.start bench [routine]).Reaches
      (Traffic.alone (Caller.run 0 routine bench)) := .next .start (.move (.turn 0) rfl)
  have finished := completes α .done
  rw [Routine.andThen_done] at finished
  exact started.trans finished

end Completes

/-- Meanwhile the bench may change, for a caller that waits up to a deadline. -/
def Waits (deadline : Nat) (bench after : Bench σ) : Prop :=
  ∀ (α : Type) (command : String) (next : Except Fault String → Routine α),
    (Traffic.alone (bench, .awaiting command deadline next)).Reaches
      (Traffic.alone (after, .awaiting command deadline next))

theorem Waits.trans {deadline : Nat} {bench middle after : Bench σ} (first : bench.Waits deadline middle)
    (second : middle.Waits deadline after) : bench.Waits deadline after :=
  fun α command next => (first α command next).trans (second α command next)

/-- How an answer sets out. -/
def coming (pace : Pace) (clock : Nat) (answer : List String) : List Delivery :=
  if answer.isEmpty then []
  else [⟨clock + pace.latency, Delivery.chunksOf pace.chunkSize (Delivery.payload answer)⟩]

/-- The port takes everything at once, it is known how the far end answers, and this is on its way at a
time. -/
structure IsSet (answers : σ → String → List String) (pace : Pace) (bound clock : Nat)
    (deliveries : List Delivery) (framer : Framer) (bench : Bench σ) : Prop where
  isOpen : bench.station.port.isOpen = true
  succeeds : bench.station.port.failsWrites = false
  stays : bench.station.port.dropsOnWrite = false
  atOnce : bench.station.port.writeTime = some 0
  steady : bench.station.ticker.IsSteady
  responds : ∀ state command, (bench.farEnd.respond state command).2 = answers state command
  pace : bench.pace = pace
  bound : bench.station.link.replyBound = bound
  clock : bench.clock = clock
  deliveries : bench.deliveries = deliveries
  framer : bench.station.link.framer = framer

/-- Nobody exchanges a command. -/
structure IsFree (answers : σ → String → List String) (pace : Pace) (bound clock : Nat)
    (deliveries : List Delivery) (framer : Framer) (bench : Bench σ) : Prop
    extends IsSet answers pace bound clock deliveries framer bench where
  sendLine : bench.sendLine = []

/-- The only caller waits for the first line. -/
structure IsWaiting (answers : σ → String → List String) (pace : Pace) (bound clock : Nat)
    (deliveries : List Delivery) (framer : Framer) (bench : Bench σ) : Prop
    extends IsSet answers pace bound clock deliveries framer bench where
  sendLine : bench.sendLine = [0]
  empty : bench.station.link.queue.lines = []
  asleep : bench.station.link.isWoken = false

section

variable {answers : σ → String → List String} {pace : Pace} {bound clock deadline time : Nat}
  {deliveries : List Delivery} {framer : Framer} {bench : Bench σ} {command : String}
  {next : Except Fault String → Routine α}

/-- The bench when the only caller has asked for a command. -/
def asked (command : String) (bench : Bench σ) : Bench σ :=
  (({ bench with sendLine := [0] }).started 0 command).transfer 0 command

theorem IsFree.port_touched (free : bench.IsFree answers pace bound clock deliveries framer) :
    bench.station.port.touched = bench.station.port := by
  simp [Port.touched, free.stays]

theorem IsFree.asked (free : bench.IsFree answers pace bound clock deliveries framer)
    (command : String) :
    (bench.asked command).IsWaiting answers pace bound clock
      (deliveries ++ coming pace clock (answers bench.farEnd.state command)) framer where
  isOpen := by
    change bench.station.port.touched.isOpen = true
    rw [free.port_touched, free.isOpen]
  succeeds := by
    change bench.station.port.touched.failsWrites = false
    rw [free.port_touched, free.succeeds]
  stays := by
    change bench.station.port.touched.dropsOnWrite = false
    rw [free.port_touched, free.stays]
  atOnce := by
    change bench.station.port.touched.writeTime = some 0
    rw [free.port_touched, free.atOnce]
  steady := free.steady
  responds := free.responds
  pace := free.pace
  bound := free.bound
  clock := free.clock
  deliveries := by
    have answered : (bench.farEnd.respond bench.farEnd.state command).2 =
        answers bench.farEnd.state command := free.responds _ _
    change (if (bench.farEnd.respond bench.farEnd.state command).2.isEmpty then bench.deliveries
      else bench.deliveries ++ [⟨bench.clock + bench.pace.latency, Delivery.chunksOf
        bench.pace.chunkSize (Delivery.payload
          (bench.farEnd.respond bench.farEnd.state command).2)⟩]) = _
    rw [answered, free.deliveries, free.clock, free.pace, coming]
    split <;> simp
  framer := free.framer
  sendLine := rfl
  empty := rfl
  asleep := rfl

/-- A command is written as soon as it is asked for. -/
theorem IsFree.run_ask (free : bench.IsFree answers pace bound clock deliveries framer)
    (positive : 0 < bound) :
    Caller.run 0 (.ask command next) bench =
      (bench.asked (Text.stripLineEnd command),
        .awaiting (Text.stripLineEnd command) (clock + bound) next) := by
  have isOpen : bench.isOpen = true := free.isOpen
  have waiting := free.asked (Text.stripLineEnd command)
  have course : ({ bench with sendLine := [0] } : Bench σ).station.port.write
      ({ bench with sendLine := [0] } : Bench σ).clock bench.station.link.writeBound =
        .ends bench.clock (.ok ()) := by
    change bench.station.port.write bench.clock bench.station.link.writeBound = _
    simp [Port.write, free.port_touched, free.isOpen, free.succeeds, free.atOnce]
  have begins : ({ bench with sendLine := [0] } : Bench σ).begin 0 (Text.stripLineEnd command) =
      (bench.asked (Text.stripLineEnd command), .awaiting (clock + bound)) := by
    rw [begin_eq, course]
    have listens : (bench.asked (Text.stripLineEnd command)).listen 0 (Text.stripLineEnd command) =
        (bench.asked (Text.stripLineEnd command), .awaiting (clock + bound)) := by
      have bounded : bound ≠ 0 := Nat.ne_of_gt positive
      simp [listen, waiting.asleep, waiting.bound, waiting.clock, bounded]
    exact (if_pos (Nat.le_refl _)).trans listens
  simp only [Caller.run, isOpen, free.sendLine, begins]
  rfl

/-- A tick leaves a caller waiting. -/
theorem IsWaiting.tick (waiting : bench.IsWaiting answers pace bound clock deliveries framer) :
    (bench.onStation Station.tick).IsWaiting answers pace bound clock deliveries framer :=
  { waiting with steady := waiting.steady.fire }

/-- Before anything is due nothing happens. -/
theorem IsWaiting.isBusy_eq_false
    (waiting : bench.IsWaiting answers pace bound clock deliveries framer) (later : clock < deadline)
    (late : ∀ delivery ∈ deliveries, clock < delivery.due)
    (calm : ∀ due, bench.station.ticker.due = some due → clock < due) (command : String)
    (next : Except Fault String → Routine α) :
    (Traffic.alone (bench, .awaiting command deadline next)).isBusy = false := by
  rw [Bool.eq_false_iff]
  intro busy
  rcases Traffic.isBusy_iff.mp busy with ⟨index, turns⟩ | ⟨delivery, coming, come⟩ | ticks
  · obtain ⟨caller, here, goesOn⟩ := Traffic.canTurn_iff.mp turns
    have only : caller = .awaiting command deadline next :=
      List.mem_singleton.mp (List.mem_of_getElem? here)
    subst only
    change (bench.station.link.isWoken || decide (deadline ≤ bench.clock)) = true at goesOn
    rw [waiting.asleep, waiting.clock, Bool.false_or, decide_eq_true_eq] at goesOn
    omega
  · change delivery ∈ bench.deliveries at coming
    change delivery.due ≤ bench.clock at come
    rw [waiting.deliveries] at coming
    rw [waiting.clock] at come
    have after := late delivery coming
    omega
  · obtain ⟨due, fires, come⟩ := Ticker.isDue_iff.mp ticks
    change due ≤ bench.clock at come
    rw [waiting.clock] at come
    exact absurd come (Nat.not_le_of_lt (calm due fires))

/-- Time passes up to the first instant at which something is due. -/
theorem IsWaiting.passes (waiting : bench.IsWaiting answers pace bound clock deliveries framer)
    (later : clock < time) (early : time ≤ deadline)
    (least : ∀ delivery ∈ deliveries, time ≤ delivery.due)
    (calm : ∀ due, bench.station.ticker.due = some due → time ≤ due)
    (due : time = deadline ∨ (∃ delivery ∈ deliveries, delivery.due = time) ∨
      bench.station.ticker.due = some time) :
    bench.Waits deadline (bench.onStation fun station => { station with clock := time }) := by
  intro α command next
  have deadlines (other : Nat) :
      other ∈ (Traffic.alone (bench, .awaiting command deadline next)).deadlines ↔
        other = deadline ∨ (∃ delivery ∈ deliveries, delivery.due = other) ∨
          bench.station.ticker.due = some other := by
    simp [Traffic.mem_deadlines, Traffic.alone, Caller.deadline?, waiting.deliveries, eq_comm]
  have first : (Traffic.alone (bench, .awaiting command deadline next)).nextDeadline? = some time := by
    rw [Traffic.nextDeadline?_eq]
    refine List.min?_eq_some_iff.mpr ⟨(deadlines time).mpr due, ?_⟩
    intro other member
    rcases (deadlines other).mp member with rfl | ⟨delivery, coming, rfl⟩ | fires
    · exact early
    · exact least delivery coming
    · exact calm other fires
  have idle := waiting.isBusy_eq_false (Nat.lt_of_lt_of_le later early)
    (fun delivery coming => Nat.lt_of_lt_of_le later (least delivery coming))
    (fun other fires => Nat.lt_of_lt_of_le later (calm other fires)) command next
  have possible : (Traffic.alone (bench, .awaiting command deadline next)).can .elapse = true := by
    simp [Traffic.can, idle, first]
  have step := Traffic.Reaches.next .start (.move .elapse possible)
  rw [Traffic.make, first] at step
  exact step

theorem waits_tick (deadline : Nat) {due : Nat} (fires : bench.station.ticker.due = some due)
    (come : due ≤ bench.clock) : bench.Waits deadline (bench.onStation Station.tick) :=
  fun _ _ _ => .next .start (.move .tick (Ticker.isDue_iff.mpr ⟨due, fires, come⟩))

/-- While a caller waits, time passes and the ticker fires, up to the first delivery or the deadline. -/
theorem IsWaiting.elapse (waiting : bench.IsWaiting answers pace bound clock deliveries framer)
    (later : clock ≤ time) (early : time ≤ deadline)
    (least : ∀ delivery ∈ deliveries, time ≤ delivery.due)
    (due : time = deadline ∨ ∃ delivery ∈ deliveries, delivery.due = time) :
    ∃ after : Bench σ, bench.Waits deadline after ∧
      after.IsWaiting answers pace bound time deliveries framer := by
  -- Each step brings the clock or the ticker closer to the time.
  induction steps : (time - clock) + (time - bench.station.ticker.due.getD time) using
    Nat.strongRecOn generalizing bench clock with
  | ind steps inductionHypothesis =>
      subst steps
      have due' := due.imp_right fun comes => Or.inl (b := bench.station.ticker.due = some time) comes
      rcases Nat.eq_or_lt_of_le later with rfl | before
      · exact ⟨bench, fun _ _ _ => .start, waiting⟩
      cases fires : bench.station.ticker.due with
      | none =>
          exact ⟨_, waiting.passes before early least (by simp [fires]) due',
            { waiting with clock := rfl }⟩
      | some next =>
          rw [fires, Option.getD_some] at inductionHypothesis
          by_cases come : next ≤ clock
          · have positive := waiting.steady next fires
            have fired : (bench.onStation Station.tick).station.ticker.due =
                some (next + bench.station.ticker.period) := by
              change bench.station.ticker.due.map _ = _
              rw [fires]
              rfl
            have closer : (time - clock) +
                (time - (bench.onStation Station.tick).station.ticker.due.getD time) <
                  (time - clock) + (time - next) := by
              rw [fired, Option.getD_some]
              omega
            obtain ⟨after, waits, waitingLater⟩ := inductionHypothesis _ closer waiting.tick later rfl
            have ticks : bench.Waits deadline (bench.onStation Station.tick) :=
              waits_tick deadline fires (by rw [waiting.clock]; exact come)
            exact ⟨after, ticks.trans waits, waitingLater⟩
          · by_cases first : next < time
            · have only : ∀ due, bench.station.ticker.due = some due → next ≤ due := by
                intro other same
                rw [fires] at same
                exact Nat.le_of_eq (Option.some.inj same)
              have passes : bench.Waits deadline _ := waiting.passes (Nat.lt_of_not_le come)
                (Nat.le_trans (Nat.le_of_lt first) early)
                (fun delivery coming => Nat.le_trans (Nat.le_of_lt first) (least delivery coming)) only
                (Or.inr (Or.inr fires))
              have passed : (bench.onStation fun station =>
                  { station with clock := next }).IsWaiting answers pace bound next deliveries framer :=
                { waiting with clock := rfl }
              have closer : (time - next) + (time - bench.station.ticker.due.getD time) <
                  (time - clock) + (time - next) := by
                rw [fires, Option.getD_some]
                omega
              obtain ⟨after, waits, waitingLater⟩ :=
                inductionHypothesis _ closer passed (Nat.le_of_lt first) rfl
              exact ⟨after, passes.trans waits, waitingLater⟩
            · refine ⟨_, waiting.passes before early least ?_ due', { waiting with clock := rfl }⟩
              intro other same
              rw [fires] at same
              cases same
              omega

/-- A caller goes on when it has been woken, or when it has waited long enough. -/
theorem reaches_takeReply (bench : Bench σ) (command : String)
    (next : Except Fault String → Routine α)
    (due : bench.station.link.isWoken = true ∨ deadline ≤ bench.clock) :
    (Traffic.alone (bench, .awaiting command deadline next)).Reaches
      (Traffic.alone (Caller.follow 0 command next (bench.takeReply 0 command))) := by
  have possible : (Traffic.alone (bench, .awaiting command deadline next)).can (.turn 0) = true := by
    change (bench.station.link.isWoken || decide (deadline ≤ bench.clock)) = true
    rw [Bool.or_eq_true, decide_eq_true_eq]
    exact due
  exact .next .start (.move (.turn 0) possible)

/-- The bench when the only caller has waited in vain. -/
def givenUp (command : String) (bench : Bench σ) : Bench σ :=
  (bench.onLink Link.countReplyTimeout).concluded 0 command (.error (.replyTimedOut command))

theorem IsWaiting.takeReply_eq
    (waiting : bench.IsWaiting answers pace bound clock deliveries framer) (command : String) :
    bench.takeReply 0 command =
      (bench.givenUp command, .ended (.error (.replyTimedOut command))) := by
  simp only [takeReply, ReplyQueue.first?, waiting.empty, waiting.asleep]
  rfl

theorem IsWaiting.givenUp (waiting : bench.IsWaiting answers pace bound clock deliveries framer)
    (command : String) : (bench.givenUp command).IsFree answers pace bound clock deliveries framer := by
  have sendLine : bench.sendLine.tail = [] := by rw [waiting.sendLine]; rfl
  exact { waiting with sendLine := sendLine }

/-- An exchange for which no line comes in before the bound times out. -/
theorem IsFree.timesOut (free : bench.IsFree answers pace bound clock deliveries framer)
    (positive : 0 < bound) (command : String)
    (late : ∀ delivery ∈
      deliveries ++ coming pace clock (answers bench.farEnd.state (Text.stripLineEnd command)),
      clock + bound ≤ delivery.due) :
    ∃ after : Bench σ,
      Completes (.send command) (.error (.replyTimedOut (Text.stripLineEnd command))) bench after ∧
      after.IsFree answers pace bound (clock + bound)
        (deliveries ++ coming pace clock (answers bench.farEnd.state (Text.stripLineEnd command)))
        framer := by
  obtain ⟨due, waits, waiting⟩ := (free.asked (Text.stripLineEnd command)).elapse
    (Nat.le_add_right clock bound) (Nat.le_refl _) late (Or.inl rfl)
  refine ⟨due.givenUp (Text.stripLineEnd command), ?_, waiting.givenUp _⟩
  intro β follow
  have takes := due.reaches_takeReply (Text.stripLineEnd command) follow
    (Or.inr (Nat.le_of_eq waiting.clock.symm))
  rw [waiting.takeReply_eq] at takes
  change (Traffic.alone (Caller.run 0 (.ask command follow) bench)).Reaches _
  rw [free.run_ask positive]
  exact (waits _ _ _).trans takes

section

variable {due : Nat} {chunk : List UInt8} {chunks : List (List UInt8)} {others : List Delivery}

theorem deliver_first (first : bench.deliveries = ⟨due, chunk :: chunks⟩ :: others) :
    bench.deliver 0 = onStation (Station.receive chunk)
      { bench with deliveries := Delivery.behind due chunks others } := by
  unfold deliver
  rw [first]
  cases chunks with
  | nil => rfl
  | cons next more => rfl

/-- A chunk that is due may come in. -/
theorem waits_deliver (deadline : Nat) (first : bench.deliveries = ⟨due, chunk :: chunks⟩ :: others)
    (come : due ≤ bench.clock) : bench.Waits deadline (bench.deliver 0) := by
  intro α command next
  have possible : (Traffic.alone (bench, .awaiting command deadline next)).can (.deliver 0) = true := by
    change bench.canDeliver 0 = true
    rw [canDeliver, first]
    exact decide_eq_true come
  exact .next .start (.move (.deliver 0) possible)

/-- A chunk that completes no line leaves the caller waiting. -/
theorem IsWaiting.deliver
    (waiting : bench.IsWaiting answers pace bound clock (⟨due, chunk :: chunks⟩ :: others) framer)
    (none : (framer.feed chunk).2 = []) :
    (bench.deliver 0).IsWaiting answers pace bound clock (Delivery.behind due chunks others)
      (framer.feed chunk).1 := by
  have silent : bench.station.link.completed chunk = [] := by
    rw [Link.completed, waiting.framer, none]
  rw [deliver_first waiting.deliveries]
  exact { waiting with
    deliveries := rfl
    framer := by
      change (bench.station.link.framer.feed chunk).1 = _
      rw [waiting.framer]
    empty := by
      change (bench.station.link.queue.pushAll (bench.station.link.completed chunk)).lines = []
      rw [silent]
      exact waiting.empty
    asleep := by
      change (bench.station.link.isWoken || !(bench.station.link.completed chunk).isEmpty) = false
      rw [silent, waiting.asleep]
      rfl }

/-- Chunks that complete no line come in one after another. -/
theorem IsWaiting.deliverAll (before : List (List UInt8))
    (waiting : bench.IsWaiting answers pace bound clock
      (⟨due, before ++ chunk :: chunks⟩ :: others) framer) (deadline : Nat) (come : due ≤ clock)
    (none : (framer.feed before.flatten).2 = []) :
    ∃ after : Bench σ, bench.Waits deadline after ∧
      after.IsWaiting answers pace bound clock (⟨due, chunk :: chunks⟩ :: others)
        (framer.feed before.flatten).1 := by
  induction before generalizing bench framer with
  | nil => exact ⟨bench, fun _ _ _ => .start, waiting⟩
  | cons first before inductionHypothesis =>
      rw [List.flatten_cons, Framer.feedAppend] at none ⊢
      obtain ⟨noneFirst, noneBefore⟩ := List.append_eq_nil_iff.mp none
      have come' : due ≤ bench.clock := by rw [waiting.clock]; exact come
      have waits : bench.Waits deadline (bench.deliver 0) :=
        waits_deliver deadline waiting.deliveries come'
      have later := waiting.deliver noneFirst
      have more : Delivery.behind due (before ++ chunk :: chunks) others =
          ⟨due, before ++ chunk :: chunks⟩ :: others := by
        simp [Delivery.behind]
      rw [List.append_eq, more] at later
      obtain ⟨after, waitsLater, waiting⟩ := inductionHypothesis later noneBefore
      exact ⟨after, waits.trans waitsLater, waiting⟩

/-- The chunk that completes the first lines ends the wait. -/
theorem IsWaiting.takesLine
    (waiting : bench.IsWaiting answers pace bound clock (⟨due, chunk :: chunks⟩ :: others) framer)
    (come : due ≤ clock) (some : (framer.feed chunk).2 ≠ []) {text : String}
    (all : ∀ line ∈ (framer.feed chunk).2, line = text) (command : String) :
    ∃ after : Bench σ, after.IsFree answers pace bound clock (Delivery.behind due chunks others)
        (framer.feed chunk).1 ∧
      ∀ {α : Type} (deadline : Nat) (next : Except Fault String → Routine α),
        (Traffic.alone (bench, .awaiting command deadline next)).Reaches
          (Traffic.alone (Caller.run 0 (next (.ok text)) after)) := by
  have completed : bench.station.link.completed chunk = (framer.feed chunk).2 := by
    rw [Link.completed, waiting.framer]
  have delivered := deliver_first waiting.deliveries
  have woken : (bench.deliver 0).station.link.isWoken = true := by
    rw [delivered]
    change (bench.station.link.isWoken || !(bench.station.link.completed chunk).isEmpty) = true
    rw [completed, waiting.asleep]
    simpa using some
  have queue : (bench.deliver 0).station.link.queue =
      bench.station.link.queue.pushAll (framer.feed chunk).2 := by
    rw [delivered, ← completed]
    rfl
  cases first : (bench.deliver 0).station.link.queue.first? with
  | none =>
      rw [ReplyQueue.first?_eq_none_iff, queue] at first
      exact absurd first (ReplyQueue.lines_pushAll_ne_nil (Or.inr some))
  | some found =>
      obtain ⟨line, more⟩ := found
      have member := ReplyQueue.mem_of_first? first
      rw [queue] at member
      have own : line.text = text := by
        rcases ReplyQueue.mem_lines_pushAll member with old | new
        · rw [waiting.empty] at old
          contradiction
        · exact all line.text new
      refine ⟨((bench.deliver 0).onLink Link.empty).concluded 0 command (.ok line), ?_, ?_⟩
      · have sendLine : bench.sendLine.tail = [] := by rw [waiting.sendLine]; rfl
        rw [delivered]
        exact { waiting with
          deliveries := rfl
          framer := by
            change (bench.station.link.framer.feed chunk).1 = _
            rw [waiting.framer]
          sendLine := sendLine }
      · intro α deadline next
        have come' : due ≤ bench.clock := by rw [waiting.clock]; exact come
        have takes := (bench.deliver 0).reaches_takeReply command next (.inl woken : _ ∨ deadline ≤ _)
        have reply : (bench.deliver 0).takeReply 0 command =
            ((bench.deliver 0).onLink Link.empty).conclude 0 command (.ok line) := by
          rw [takeReply, first]
        rw [reply] at takes
        rw [← own]
        exact (waits_deliver deadline waiting.deliveries come' α command next).trans takes

/-- An exchange ends with the first line that comes in before the bound. -/
theorem IsFree.takesLine (free : bench.IsFree answers pace bound clock deliveries framer)
    (positive : 0 < bound) (command : String) (before : List (List UInt8))
    (first : deliveries ++ coming pace clock (answers bench.farEnd.state (Text.stripLineEnd command)) =
      ⟨due, before ++ chunk :: chunks⟩ :: others)
    (early : due ≤ clock + bound) (least : clock < due → ∀ delivery ∈ others, due ≤ delivery.due)
    (none : (framer.feed before.flatten).2 = [])
    (some : ((framer.feed before.flatten).1.feed chunk).2 ≠ []) {text : String}
    (all : ∀ line ∈ ((framer.feed before.flatten).1.feed chunk).2, line = text) :
    ∃ after : Bench σ, Completes (.send command) (.ok text) bench after ∧
      after.IsFree answers pace bound (max clock due) (Delivery.behind due chunks others)
        ((framer.feed before.flatten).1.feed chunk).1 := by
  have asked := free.asked (Text.stripLineEnd command)
  rw [first] at asked
  -- Time passes until the delivery is due, unless it is due already.
  have come : ∃ middle : Bench σ, (bench.asked (Text.stripLineEnd command)).Waits (clock + bound) middle ∧
      middle.IsWaiting answers pace bound (max clock due) (⟨due, before ++ chunk :: chunks⟩ :: others)
        framer := by
    by_cases already : due ≤ clock
    · rw [Nat.max_eq_left already]
      exact ⟨_, fun _ _ _ => .start, asked⟩
    · rw [Nat.max_eq_right (by omega)]
      refine asked.elapse (by omega) early ?_ (Or.inr ⟨_, List.mem_cons_self, rfl⟩)
      intro delivery member
      rcases List.mem_cons.mp member with rfl | later
      · exact Nat.le_refl _
      · exact least (by omega) delivery later
  obtain ⟨middle, waitsDue, waitingDue⟩ := come
  obtain ⟨last, waits, waiting⟩ :=
    waitingDue.deliverAll before (clock + bound) (Nat.le_max_right _ _) none
  obtain ⟨after, freed, takes⟩ :=
    waiting.takesLine (Nat.le_max_right _ _) some all (Text.stripLineEnd command)
  refine ⟨after, ?_, freed⟩
  intro β follow
  change (Traffic.alone (Caller.run 0 (.ask command follow) bench)).Reaches _
  rw [free.run_ask positive]
  exact ((waitsDue.trans waits) _ _ _).trans (takes _ _)

end

end

end Bench

end DelayGenerator
