/-
This file shows that every caller gets the answer to its own command, when the far end answers every
command with one line in time.
-/

import DelayGenerator.Proofs.Bench.Freshness
import DelayGenerator.Proofs.Bench.Punctual
import DelayGenerator.Proofs.Bench.Service
import DelayGenerator.Proofs.Bench.Termination

namespace DelayGenerator

/-- Who begins an exchange, and for which command. -/
def Event.begun? : Event → Option (Nat × String)
  | .began caller command _ => some (caller, command)
  | _ => none

/-- Whose exchange ends for which command, and what the caller is told. -/
def Event.concluded? : Event → Option (Nat × String × Except Fault String)
  | .ended caller command outcome => some (caller, command, outcome.map QueuedLine.text)
  | _ => none

namespace Journal

/-- Who has asked what. -/
def key (write : Nat × String × List String) : Nat × String := (write.1, write.2.1)

/-- What the caller of a command is to be told when it is answered with one line. -/
def told (write : Nat × String × List String) : Nat × String × Except Fault String :=
  (write.1, write.2.1, .ok (write.2.2.headD ""))

/-- Exchanges are carried out one after another, each with its own command and its own answer. -/
def InStep (journal : List Entry) : Prop :=
  match phase journal with
  | .idle =>
    collect Event.begun? journal = (collect Event.written? journal).map key ∧
      collect Event.concluded? journal = (collect Event.written? journal).map told
  | .begun caller command _ =>
    collect Event.begun? journal = (collect Event.written? journal).map key ++ [(caller, command)] ∧
      collect Event.concluded? journal = (collect Event.written? journal).map told
  | .written caller command _ _ answer =>
    ∃ earlier, collect Event.written? journal = earlier ++ [(caller, command, answer)] ∧
      collect Event.begun? journal = (collect Event.written? journal).map key ∧
      collect Event.concluded? journal = earlier.map told

section

variable {journal : List Entry} {caller mark sent : Nat} {command : String} {answer : List String}

theorem inStep_of_idle (idle : phase journal = .idle)
    (begins : collect Event.begun? journal = (collect Event.written? journal).map key)
    (ends : collect Event.concluded? journal = (collect Event.written? journal).map told) :
    InStep journal := by
  unfold InStep
  rw [idle]
  exact ⟨begins, ends⟩

theorem inStep_of_begun (begun : phase journal = .begun caller command mark)
    (begins : collect Event.begun? journal =
      (collect Event.written? journal).map key ++ [(caller, command)])
    (ends : collect Event.concluded? journal = (collect Event.written? journal).map told) :
    InStep journal := by
  unfold InStep
  rw [begun]
  exact ⟨begins, ends⟩

theorem inStep_of_written (written : phase journal = .written caller command mark sent answer)
    {earlier : List (Nat × String × List String)}
    (writes : collect Event.written? journal = earlier ++ [(caller, command, answer)])
    (begins : collect Event.begun? journal = (collect Event.written? journal).map key)
    (ends : collect Event.concluded? journal = earlier.map told) : InStep journal := by
  unfold InStep
  rw [written]
  exact ⟨earlier, writes, begins, ends⟩

theorem InStep.idle (inStep : InStep journal) (idle : phase journal = .idle) :
    collect Event.begun? journal = (collect Event.written? journal).map key ∧
      collect Event.concluded? journal = (collect Event.written? journal).map told := by
  unfold InStep at inStep
  rw [idle] at inStep
  exact inStep

theorem InStep.begun (inStep : InStep journal) (begun : phase journal = .begun caller command mark) :
    collect Event.begun? journal = (collect Event.written? journal).map key ++ [(caller, command)] ∧
      collect Event.concluded? journal = (collect Event.written? journal).map told := by
  unfold InStep at inStep
  rw [begun] at inStep
  exact inStep

theorem InStep.written (inStep : InStep journal)
    (written : phase journal = .written caller command mark sent answer) :
    ∃ earlier, collect Event.written? journal = earlier ++ [(caller, command, answer)] ∧
      collect Event.begun? journal = (collect Event.written? journal).map key ∧
      collect Event.concluded? journal = earlier.map told := by
  unfold InStep at inStep
  rw [written] at inStep
  exact inStep

/-- What is recorded aside leaves the exchanges in step. -/
theorem InStep.aside (inStep : InStep journal) {entry : Entry} (aside : entry.event.isAside = true) :
    InStep (entry :: journal) := by
  obtain ⟨time, event⟩ := entry
  unfold InStep at inStep ⊢
  rw [phase, Phase.after_aside _ aside]
  cases event <;> first | contradiction | simpa [collect, Event.begun?, Event.written?,
    Event.concluded?] using inStep

/-- An exchange that has its answer ends with it. -/
theorem InStep.concluded (inStep : InStep journal) {limit time : Nat}
    {outcome : Except Fault QueuedLine}
    (answered : IsAnswered limit journal ⟨time, .ended caller command outcome⟩)
    (single : ∀ write ∈ collect Event.written? journal,
      ∃ line, write.2.2 = [line] ∧ Delivery.framed limit [line] = [line]) :
    InStep (⟨time, .ended caller command outcome⟩ :: journal) := by
  obtain ⟨mark, sent, answer, written, right⟩ := answered caller command outcome rfl
  obtain ⟨earlier, writes, begins, ends⟩ := inStep.written written
  obtain ⟨line, only, found⟩ := single (caller, command, answer) (by rw [writes]; simp)
  dsimp only at only
  subst only
  rw [found] at right
  -- The only line of the answer is the reply.
  rcases right with ⟨reply, rfl, member⟩ | ⟨_, none⟩
  · have same : reply.text = line := List.mem_singleton.mp member
    have silent : collect Event.written? (⟨time, .ended caller command (.ok reply)⟩ :: journal) =
        collect Event.written? journal := collect_cons_none _ rfl
    apply inStep_of_idle rfl
    · rw [silent, ← begins]
      exact collect_cons_none _ rfl
    · have ended : collect Event.concluded? (⟨time, .ended caller command (.ok reply)⟩ :: journal) =
          collect Event.concluded? journal ++ [(caller, command, .ok reply.text)] :=
        collect_cons_some _ rfl
      rw [ended, silent, ends, writes, List.map_append, same]
      rfl
  · contradiction

/-- Exchanges are carried out one after another if each command has an answer of one line. -/
theorem inStep {start : Link} {limit : Nat} (orderly : IsOrderly start journal)
    (inTurn : Every InTurn journal) (answered : Every (IsAnswered limit) journal)
    (single : ∀ write ∈ collect Event.written? journal,
      ∃ line, write.2.2 = [line] ∧ Delivery.framed limit [line] = [line]) : InStep journal := by
  induction journal with
  | nil => exact ⟨rfl, rfl⟩
  | cons entry past inductionHypothesis =>
      obtain ⟨⟨admits, _⟩, orderlyPast⟩ := orderly
      obtain ⟨own, answeredPast⟩ := answered
      have singlePast : ∀ write ∈ collect Event.written? past,
          ∃ line, write.2.2 = [line] ∧ Delivery.framed limit [line] = [line] :=
        fun write member => single write (List.mem_append_left _ member)
      have earlier := inductionHypothesis orderlyPast inTurn.2 answeredPast singlePast
      cases admits with
      | began time caller command idle =>
          obtain ⟨begins, ends⟩ := earlier.idle idle
          apply inStep_of_begun rfl
          · simpa [collect, Event.begun?, Event.written?] using begins
          · simpa [collect, Event.concluded?, Event.written?] using ends
      | @wrote caller mark command time answer begun =>
          obtain ⟨begins, ends⟩ := earlier.begun begun
          have written : phase (⟨time, .wrote caller command answer⟩ :: past) =
              .written caller command mark time answer := by
            rw [phase, begun]
            simp [Phase.after]
          apply inStep_of_written written (collect_cons_some _ rfl)
          · simpa [collect, Event.begun?, Event.written?, key] using begins
          · simpa [collect, Event.concluded?] using ends
      | @passed caller time command answer foreign =>
          obtain ⟨mark, begun⟩ := inTurn.1 caller command answer rfl
          rw [begun] at foreign
          exact absurd rfl foreign
      | failed time begun kind => exact earlier.concluded own singlePast
      | replied time written first => exact earlier.concluded own singlePast
      | wokenInVain time written empty woken => exact earlier.concluded own singlePast
      | timedOut time written empty asleep late => exact earlier.concluded own singlePast
      | aside aside => exact earlier.aside aside

end

end Journal

/-- The lines with which a machine answers commands that come one after another. -/
def replies {σ : Type} (reply : σ → String → σ × String) : σ → List String → List String
  | _, [] => []
  | state, command :: rest => (reply state command).2 :: replies reply (reply state command).1 rest

section

variable {σ : Type} (reply : σ → String → σ × String)

theorem length_replies (state : σ) (commands : List String) :
    (replies reply state commands).length = commands.length := by
  induction commands generalizing state with
  | nil => rfl
  | cons command rest inductionHypothesis =>
      rw [replies, List.length_cons, List.length_cons, inductionHypothesis]

/-- What comes later has no influence on the answers. -/
theorem replies_append (state : σ) (commands more : List String) :
    ∃ others, replies reply state (commands ++ more) = replies reply state commands ++ others := by
  induction commands generalizing state with
  | nil => exact ⟨_, rfl⟩
  | cons command rest inductionHypothesis =>
      obtain ⟨others, parts⟩ := inductionHypothesis (reply state command).1
      exact ⟨others, by rw [List.cons_append, replies, replies, parts, List.cons_append]⟩

theorem FarEnd.answers_eq {reply : σ → String → σ × String} {farEnd : FarEnd σ}
    (responds : ∀ state command,
      farEnd.respond state command = ((reply state command).1, [(reply state command).2]))
    (commands : List String) :
    farEnd.answers commands = (replies reply farEnd.state commands).map fun line => [line] := by
  induction commands generalizing farEnd with
  | nil => rfl
  | cons command rest inductionHypothesis =>
      have later : (farEnd.taken command).answers rest = _ := inductionHypothesis responds
      rw [answers, replies, List.map_cons, later]
      simp [taken, responds]

end

namespace Journal

/-- The exchanges that have begun, in this order, each with the answer of its command. -/
def plan {σ : Type} (reply : σ → String → σ × String) (state : σ) (journal : List Entry) :
    List ((Nat × String) × String) :=
  (collect Event.begun? journal).zip
    (replies reply state ((collect Event.begun? journal).map Prod.snd))

/-- The exchanges write their own commands in the order in which they begin, and end in the same order
with the answers to their own commands. At most one of them has not ended. -/
structure IsAttributed (plan : List ((Nat × String) × String)) (journal : List Entry) : Prop where
  written : collect Event.written? journal <+: plan.map fun item => (item.1.1, item.1.2, [item.2])
  concluded : collect Event.concluded? journal <+: plan.map fun item =>
    (item.1.1, item.1.2, .ok item.2)
  oneAtATime : plan.length ≤ (collect Event.concluded? journal).length + 1

/-- Commands with one line of answer each, taken apart. -/
theorem writes_eq_zip (writes : List (Nat × String × List String)) (lines : List String)
    (answers : writes.map (fun write => write.2.2) = lines.map fun line => [line]) :
    writes = ((writes.map key).zip lines).map fun item => (item.1.1, item.1.2, [item.2]) := by
  induction writes generalizing lines with
  | nil => rfl
  | cons write rest inductionHypothesis =>
      cases lines with
      | nil => contradiction
      | cons line others =>
          obtain ⟨caller, command, answer⟩ := write
          simp only [List.map_cons, List.cons.injEq] at answers
          obtain ⟨rfl, later⟩ := answers
          simp only [List.map_cons, List.zip_cons_cons, key, List.cons.injEq, true_and]
          exact inductionHypothesis others later

/-- A plan goes on with further exchanges in the same way. -/
theorem plan_eq_append {σ : Type} (reply : σ → String → σ × String) (state : σ)
    {journal : List Entry} {writes : List (Nat × String × List String)} {extra : List (Nat × String)}
    (begins : collect Event.begun? journal = writes.map key ++ extra) :
    ∃ rest, rest.length = extra.length ∧ plan reply state journal =
      (writes.map key).zip (replies reply state (writes.map fun write => write.2.1)) ++ rest := by
  have commands : (collect Event.begun? journal).map Prod.snd =
      (writes.map fun write => write.2.1) ++ extra.map Prod.snd := by
    rw [begins, List.map_append, List.map_map]
    rfl
  obtain ⟨others, parts⟩ := replies_append reply state (writes.map fun write => write.2.1)
    (extra.map Prod.snd)
  have total := length_replies reply state
    ((writes.map fun write => write.2.1) ++ extra.map Prod.snd)
  have before := length_replies reply state (writes.map fun write => write.2.1)
  rw [parts, List.length_append, before, List.length_append, List.length_map, List.length_map] at total
  refine ⟨extra.zip others, ?_, ?_⟩
  · rw [List.length_zip]
    omega
  · rw [plan, commands, parts, begins]
    apply List.zip_append
    rw [before, List.length_map, List.length_map]

/-- How many exchanges have begun, written and ended. -/
theorem InStep.summary {journal : List Entry} (inStep : InStep journal) :
    ∃ extra, collect Event.begun? journal = (collect Event.written? journal).map key ++ extra ∧
      collect Event.concluded? journal <+: (collect Event.written? journal).map told ∧
      (collect Event.written? journal).length + extra.length ≤
        (collect Event.concluded? journal).length + 1 := by
  cases phase : phase journal with
  | idle =>
      obtain ⟨begins, ends⟩ := inStep.idle phase
      have many := congrArg List.length ends
      rw [List.length_map] at many
      refine ⟨[], begins.trans (List.append_nil _).symm, ends ▸ List.prefix_refl _, ?_⟩
      simp only [List.length_nil]
      omega
  | begun caller command mark =>
      obtain ⟨begins, ends⟩ := inStep.begun phase
      have many := congrArg List.length ends
      rw [List.length_map] at many
      refine ⟨[(caller, command)], begins, ends ▸ List.prefix_refl _, ?_⟩
      simp only [List.length_singleton]
      omega
  | written caller command mark sent answer =>
      obtain ⟨earlier, writes, begins, ends⟩ := inStep.written phase
      have many := congrArg List.length ends
      have more := congrArg List.length writes
      rw [List.length_map] at many
      rw [List.length_append, List.length_singleton] at more
      refine ⟨[], begins.trans (List.append_nil _).symm, ?_, ?_⟩
      · simp only [ends, writes, List.map_append, List.prefix_append]
      · simp only [List.length_nil]
        omega

theorem InStep.isAttributed {σ : Type} {reply : σ → String → σ × String} {state : σ}
    {journal : List Entry} (inStep : InStep journal)
    (answers : (collect Event.written? journal).map (fun write => write.2.2) =
      (replies reply state ((collect Event.written? journal).map fun write => write.2.1)).map
        fun line => [line]) : IsAttributed (plan reply state journal) journal := by
  obtain ⟨extra, begins, ends, count⟩ := inStep.summary
  obtain ⟨rest, length, whole⟩ := plan_eq_append reply state begins
  have parts := writes_eq_zip _ _ answers
  have tells := congrArg (List.map told) parts
  rw [List.map_map] at tells
  constructor
  · rw [whole, List.map_append, ← parts]
    exact List.prefix_append _ _
  · rw [whole, List.map_append]
    rw [tells] at ends
    exact ends.trans (List.prefix_append _ _)
  · have size := congrArg List.length begins
    rw [List.length_append, List.length_map] at size
    have planned : (plan reply state journal).length = (collect Event.begun? journal).length := by
      rw [plan, List.length_zip, length_replies, List.length_map, Nat.min_self]
    omega

end Journal

namespace Routine

/-- Sends commands one after another, each after a delay, and gives their outcomes. -/
def sendEach : List (Nat × String) → Routine (List (Except Fault String))
  | [] => .done []
  | (delay, command) :: others =>
    .pause delay (.ask command fun outcome =>
      (sendEach others).andThen fun outcomes => .done (outcome :: outcomes))

theorem only_sendEach (items : List (Nat × String)) :
    (sendEach items).Only (fun _ => False) False := by
  induction items with
  | nil => trivial
  | cons item others inductionHypothesis =>
      intro outcome
      exact inductionHypothesis.andThen fun outcomes => trivial

/-- The outcomes that a caller gives in the end are those it has been told for its own commands. -/
theorem leads_sendEach {items : List (Nat × String)}
    {transcript : List (String × Except Fault String)} {values : List (Except Fault String)}
    (leads : (sendEach items).Leads False transcript (.done values)) :
    transcript = (items.map fun item => Text.stripLineEnd item.2).zip values ∧
      values.length = items.length := by
  induction items generalizing transcript values with
  | nil =>
      cases leads with
      | here => exact ⟨rfl, rfl⟩
  | cons item others inductionHypothesis =>
      cases leads with
      | paused later =>
          cases later with
          | refused possible later => contradiction
          | asked outcome later =>
              obtain ⟨outcomes, first, second, rfl, before, after⟩ := later.of_andThen
              obtain ⟨rfl, length⟩ := inductionHypothesis before
              cases after with
              | here =>
                  refine ⟨?_, ?_⟩
                  · rw [List.append_nil]
                    rfl
                  · rw [List.length_cons, List.length_cons, length]

end Routine

/-- A bench at which nothing has happened. Its far end answers every command with one printable line
that fits into the framer, in time and in chunks of any size, and nothing else is on its way. -/
structure Bench.AnswersEach {σ : Type} (reply : σ → String → σ × String) (bench : Bench σ) : Prop where
  fresh : bench.IsFresh
  working : bench.IsWorking
  inTime : bench.pace.latency < bench.station.link.replyBound
  quiet : bench.IsQuiet bench.station.link.framer.limit
  responds : ∀ state command,
    bench.farEnd.respond state command = ((reply state command).1, [(reply state command).2])
  printable : ∀ state command, Text.IsPrintable (reply state command).2
  short : ∀ state command, (reply state command).2.length ≤ bench.station.link.framer.limit

namespace Bench.AnswersEach

variable {σ : Type} {reply : σ → String → σ × String} {bench : Bench σ}

theorem answersWhole (answers : bench.AnswersEach reply) :
    bench.AnswersWhole True bench.station.link.framer.limit where
  working := answers.working
  inTime := fun _ => answers.inTime
  whole := by
    intro state command
    rw [answers.responds]
    exact Delivery.isWhole_line (answers.printable state command) _

/-- Every answer of the far end is one line, which the framer finds. -/
theorem single (answers : bench.AnswersEach reply) {commands : List String} {answer : List String}
    (member : answer ∈ bench.farEnd.answers commands) :
    ∃ line, answer = [line] ∧ Delivery.framed bench.station.link.framer.limit [line] = [line] := by
  generalize farEnd : bench.farEnd = served at member
  have responds : served.respond = bench.farEnd.respond := by rw [farEnd]
  clear farEnd
  induction commands generalizing served with
  | nil => contradiction
  | cons command rest inductionHypothesis =>
      rcases List.mem_cons.mp member with rfl | later
      · rw [responds, answers.responds]
        exact ⟨_, rfl, Delivery.framed_line (answers.printable _ _) (answers.short _ _)⟩
      · exact inductionHypothesis (served.taken command) later responds

end Bench.AnswersEach

namespace Journal

/-- The outcomes of a caller are those of the exchanges that are its own. -/
theorem map_outcomes (number : Nat) (journal : List Entry) :
    (outcomes number journal).map (fun outcome => (number, outcome.1, outcome.2)) =
      (collect Event.concluded? journal).filter fun ending => ending.1 = number := by
  induction journal with
  | nil => rfl
  | cons entry past inductionHypothesis =>
      obtain ⟨time, event⟩ := entry
      cases event with
      | ended caller command outcome =>
          have ends : collect Event.concluded? (⟨time, .ended caller command outcome⟩ :: past) =
              collect Event.concluded? past ++ [(caller, command, outcome.map QueuedLine.text)] :=
            collect_cons_some _ rfl
          rw [ends, List.filter_append, ← inductionHypothesis]
          by_cases own : caller = number
          · subst own
            have outcomes : outcomes caller (⟨time, .ended caller command outcome⟩ :: past) =
                Journal.outcomes caller past ++ [(command, outcome.map QueuedLine.text)] :=
              collect_cons_some _ (Event.outcome?_own caller command outcome)
            rw [outcomes, List.map_append]
            simp
          · have outcomes : outcomes number (⟨time, .ended caller command outcome⟩ :: past) =
                Journal.outcomes number past :=
              collect_cons_none _ (Event.outcome?_other (Ne.symm own) command outcome)
            rw [outcomes]
            simp [own]
      | _ =>
          rw [outcomes, collect_cons_none past rfl, collect_cons_none past rfl]
          exact inductionHypothesis

/-- The counters count faults, unless somebody resets them. -/
theorem counters_link {start : Link} {journal : List Entry}
    (passive : ∀ entry ∈ journal, entry.event.isAct = false)
    (answered : ∀ ending ∈ collect Event.concluded? journal, ∃ text, ending.2.2 = .ok text) :
    (link start journal).writeTimeouts = start.writeTimeouts ∧
      (link start journal).replyTimeouts = start.replyTimeouts := by
  induction journal with
  | nil => exact ⟨rfl, rfl⟩
  | cons entry past inductionHypothesis =>
      have earlier := inductionHypothesis
        (fun other member => passive other (List.mem_cons_of_mem entry member))
        fun ending member => answered ending (List.mem_append_left _ member)
      have own := passive entry List.mem_cons_self
      obtain ⟨time, event⟩ := entry
      rw [link]
      cases event with
      | did caller act => contradiction
      | ended caller command outcome =>
          cases outcome with
          | ok line => exact earlier
          | error fault =>
              obtain ⟨text, ended⟩ := answered (caller, command, .error fault)
                (List.mem_append_right _ List.mem_cons_self)
              contradiction
      | _ => exact earlier

end Journal

namespace Traffic

variable {σ : Type}

/-- What callers have that send commands to a far end that answers each of them. -/
structure AttributesReplies (reply : σ → String → σ × String) (first : Bench σ)
    (sends : List (List (Nat × String)))
    (traffic : Traffic (List (Except Fault String)) σ) : Prop where
  attributed :
    Journal.IsAttributed (Journal.plan reply first.farEnd.state traffic.journal) traffic.journal
  counters : traffic.bench.station.link.writeTimeouts = first.station.link.writeTimeouts ∧
    traffic.bench.station.link.replyTimeouts = first.station.link.replyTimeouts
  /-- A caller that has finished has sent all of its commands, and gives what each of them was told. -/
  values : ∀ index time values, traffic.callers[index]? = some (.finished time values) →
    ∃ items, sends[index]? = some items ∧ values.length = items.length ∧
      (Journal.collect Event.concluded? traffic.journal).filter (fun ending => ending.1 = index) =
        (items.zip values).map fun sent => (index, Text.stripLineEnd sent.1.2, sent.2)
  terminates : first.IsStopped → Acc (fun after before => before.Step after) traffic
  finishes : (∀ move, traffic.can move = false) → traffic.isFinished = true

/-- Every caller gets the answer to its own command, whatever the order of the moves: no answer is lost,
given twice or given to someone else. -/
theorem Reaches.attributesReplies {reply : σ → String → σ × String} {first : Bench σ}
    (answers : first.AnswersEach reply) {sends : List (List (Nat × String))}
    {last : Traffic (List (Except Fault String)) σ}
    (reached : (Traffic.start first (sends.map Routine.sendEach)).Reaches last) :
    last.AttributesReplies reply first sends := by
  have only : ∀ routine ∈ sends.map Routine.sendEach, routine.Only (fun _ => False) False := by
    intro routine member
    obtain ⟨items, _, rfl⟩ := List.mem_map.mp member
    exact Routine.only_sendEach items
  have regular := reached.regular answers.fresh
  obtain ⟨punctual, told⟩ :=
    reached.punctual answers.fresh answers.answersWhole answers.quiet only
  have serves := reached.serves answers.fresh
  have single : ∀ write ∈ Journal.collect Event.written? last.journal, ∃ line,
      write.2.2 = [line] ∧ Delivery.framed first.station.link.framer.limit [line] = [line] := by
    intro write member
    apply answers.single
    rw [← serves.answers]
    exact List.mem_map_of_mem member
  have attributed : Journal.IsAttributed (Journal.plan reply first.farEnd.state last.journal)
      last.journal := by
    apply (Journal.inStep regular.recorded.orderly (reached.inTurn answers.fresh only)
      punctual.bench.answered single).isAttributed
    exact serves.answers.trans (FarEnd.answers_eq answers.responds _)
  constructor
  · exact attributed
  · rw [regular.recorded.link]
    apply Journal.counters_link punctual.bench.passive
    intro ending member
    obtain ⟨item, _, rfl⟩ := List.mem_map.mp (attributed.concluded.subset member)
    exact ⟨item.2, rfl⟩
  · intro index time values finished
    obtain ⟨routine, rest, found, leads, rfl⟩ := told index _ finished
    rw [List.getElem?_map, Option.map_eq_some_iff] at found
    obtain ⟨items, here, rfl⟩ := found
    obtain ⟨transcript, length⟩ := Routine.leads_sendEach leads
    refine ⟨items, here, length, ?_⟩
    rw [← Journal.map_outcomes, transcript, List.zip_map_left, List.map_map]
    rfl
  · intro stopped
    exact acc_step last (reached.isStopped stopped)
  · intro stuck
    apply List.all_eq_true.mpr
    intro caller member
    obtain ⟨index, here⟩ := List.mem_iff_getElem?.mp member
    rcases regular.finished_of_stuck stuck here with finished | ⟨routine, rfl⟩
    · exact finished
    · obtain ⟨rest, rfl, claims⟩ := told.only only here
      exact claims.1.elim

/-- Two callers each get their own of two answers that differ. -/
theorem Reaches.attributesReplies_two :
    let reply : Bool → String → Bool × String := fun isOn _ => (!isOn, if isOn then "1" else "0")
    let farEnd : FarEnd Bool :=
      ⟨false, fun isOn command => ((reply isOn command).1, [(reply isOn command).2])⟩
    let first := Bench.opened { Settings.defaults with tickPeriod := 0 } farEnd ⟨5, some 2⟩
    let sends := [[(0, "A")], [(0, "B")]]
    let last := (Traffic.start first (sends.map Routine.sendEach)).play
      [.turn 0, .turn 1, .elapse, .deliver 0, .deliver 0, .turn 0, .turn 1, .elapse, .deliver 0,
        .deliver 0, .turn 1]
    last.AttributesReplies reply first sends ∧
      Journal.plan reply false last.journal = [((0, "A"), "0"), ((1, "B"), "1")] ∧
      last.results = [some (5, [.ok "0"]), some (10, [.ok "1"])] := by
  refine ⟨Reaches.attributesReplies ?_ (reaches_play _ _), by decide +kernel, by rfl⟩
  constructor
  · exact Bench.isFresh_opened _ _ _
  · exact ⟨rfl, rfl, rfl, 0, rfl, Nat.zero_le _⟩
  · decide
  · exact ⟨rfl, rfl⟩
  · exact fun _ _ => rfl
  · intro isOn command
    cases isOn <;> decide
  · intro isOn command
    cases isOn <;> decide

end Traffic

end DelayGenerator
