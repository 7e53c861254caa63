/-
This file compares what callers are told with what the journal records. A transcript lists the
commands that a routine has asked so far, with their outcomes.
-/

import DelayGenerator.Proofs.Bench.Advance
import DelayGenerator.Proofs.Bench.Chronicle

namespace DelayGenerator

namespace Routine

variable {α β : Type}

/-- A routine that is told these outcomes may have come to the rest of it. A command for a closed port
may be refused, and takes no exchange then. -/
inductive Leads (refusals : Prop) :
    Routine α → List (String × Except Fault String) → Routine α → Prop where
  | here (routine : Routine α) : Leads refusals routine [] routine
  | look {next : Station → Routine α} {items : List (String × Except Fault String)}
      {rest : Routine α} (station : Station) (later : Leads refusals (next station) items rest) :
      Leads refusals (.look next) items rest
  | act {action : Act} {next : Routine α} {items : List (String × Except Fault String)}
      {rest : Routine α} (later : Leads refusals next items rest) :
      Leads refusals (.act action next) items rest
  | refused {command : String} {next : Except Fault String → Routine α}
      {items : List (String × Except Fault String)} {rest : Routine α} (possible : refusals)
      (later : Leads refusals (next (.error .notConnected)) items rest) :
      Leads refusals (.ask command next) items rest
  | asked {command : String} {next : Except Fault String → Routine α}
      {items : List (String × Except Fault String)} {rest : Routine α}
      (outcome : Except Fault String) (later : Leads refusals (next outcome) items rest) :
      Leads refusals (.ask command next) ((Text.stripLineEnd command, outcome) :: items) rest
  | transmitted {bytes : List UInt8} {bound : Nat} {next : Except Fault Unit → Routine α}
      {items : List (String × Except Fault String)} {rest : Routine α}
      (outcome : Except Fault Unit) (later : Leads refusals (next outcome) items rest) :
      Leads refusals (.transmit bytes bound next) items rest
  | paused {duration : Nat} {next : Routine α} {items : List (String × Except Fault String)}
      {rest : Routine α} (later : Leads refusals next items rest) :
      Leads refusals (.pause duration next) items rest
  | rested {next : Routine α} {items : List (String × Except Fault String)} {rest : Routine α}
      (later : Leads refusals next items rest) : Leads refusals (.rest next) items rest
  | claimed {next : Routine α} {items : List (String × Except Fault String)} {rest : Routine α}
      (later : Leads refusals next items rest) : Leads refusals (.claim next) items rest
  | released {next : Routine α} {items : List (String × Except Fault String)} {rest : Routine α}
      (later : Leads refusals next items rest) : Leads refusals (.release next) items rest

variable {refusals : Prop} {routine middle rest : Routine α}
  {items more : List (String × Except Fault String)}

theorem Leads.trans (first : routine.Leads refusals items middle)
    (later : middle.Leads refusals more rest) : routine.Leads refusals (items ++ more) rest := by
  induction first with
  | here routine => exact later
  | look station first inductionHypothesis => exact .look station (inductionHypothesis later)
  | act first inductionHypothesis => exact .act (inductionHypothesis later)
  | refused possible first inductionHypothesis => exact .refused possible (inductionHypothesis later)
  | asked outcome first inductionHypothesis => exact .asked outcome (inductionHypothesis later)
  | transmitted outcome first inductionHypothesis =>
      exact .transmitted outcome (inductionHypothesis later)
  | paused first inductionHypothesis => exact .paused (inductionHypothesis later)
  | rested first inductionHypothesis => exact .rested (inductionHypothesis later)
  | claimed first inductionHypothesis => exact .claimed (inductionHypothesis later)
  | released first inductionHypothesis => exact .released (inductionHypothesis later)

/-- What a routine is told until it is done falls into what its two parts are told. -/
theorem Leads.of_andThen {routine : Routine α} {follow : α → Routine β} {value : β}
    (leads : (routine.andThen follow).Leads refusals items (.done value)) :
    ∃ middle first second, items = first ++ second ∧ routine.Leads refusals first (.done middle) ∧
      (follow middle).Leads refusals second (.done value) := by
  induction routine generalizing items with
  | done middle => exact ⟨middle, [], items, rfl, .here _, leads⟩
  | look next inductionHypothesis =>
      cases leads with
      | look station later =>
          obtain ⟨middle, first, second, parts, leads, rest⟩ := inductionHypothesis station later
          exact ⟨middle, first, second, parts, .look station leads, rest⟩
  | act action next inductionHypothesis =>
      cases leads with
      | act later =>
          obtain ⟨middle, first, second, parts, leads, rest⟩ := inductionHypothesis later
          exact ⟨middle, first, second, parts, .act leads, rest⟩
  | ask command next inductionHypothesis =>
      cases leads with
      | refused possible later =>
          obtain ⟨middle, first, second, parts, leads, rest⟩ := inductionHypothesis _ later
          exact ⟨middle, first, second, parts, .refused possible leads, rest⟩
      | asked outcome later =>
          obtain ⟨middle, first, second, rfl, leads, rest⟩ := inductionHypothesis outcome later
          exact ⟨middle, _ :: first, second, rfl, .asked outcome leads, rest⟩
  | transmit bytes bound next inductionHypothesis =>
      cases leads with
      | transmitted outcome later =>
          obtain ⟨middle, first, second, parts, leads, rest⟩ := inductionHypothesis outcome later
          exact ⟨middle, first, second, parts, .transmitted outcome leads, rest⟩
  | pause duration next inductionHypothesis =>
      cases leads with
      | paused later =>
          obtain ⟨middle, first, second, parts, leads, rest⟩ := inductionHypothesis later
          exact ⟨middle, first, second, parts, .paused leads, rest⟩
  | rest next inductionHypothesis =>
      cases leads with
      | rested later =>
          obtain ⟨middle, first, second, parts, leads, rest⟩ := inductionHypothesis later
          exact ⟨middle, first, second, parts, .rested leads, rest⟩
  | claim next inductionHypothesis =>
      cases leads with
      | claimed later =>
          obtain ⟨middle, first, second, parts, leads, rest⟩ := inductionHypothesis later
          exact ⟨middle, first, second, parts, .claimed leads, rest⟩
  | release next inductionHypothesis =>
      cases leads with
      | released later =>
          obtain ⟨middle, first, second, parts, leads, rest⟩ := inductionHypothesis later
          exact ⟨middle, first, second, parts, .released leads, rest⟩

/-- The routine transmits no bytes of its own, acts at the station only as allowed, and runs cycles only
if it may. -/
def Only (allowed : Act → Prop) (cycles : Prop) : Routine α → Prop
  | .done _ => True
  | .look next => ∀ station, (next station).Only allowed cycles
  | .act action next => allowed action ∧ next.Only allowed cycles
  | .ask _ next => ∀ outcome, (next outcome).Only allowed cycles
  | .transmit _ _ _ => False
  | .pause _ next => next.Only allowed cycles
  | .rest next => next.Only allowed cycles
  | .claim next => cycles ∧ next.Only allowed cycles
  | .release next => next.Only allowed cycles

variable {allowed : Act → Prop} {cycles : Prop}

/-- What a routine never does, the rest of it does not do either. -/
theorem Leads.only (leads : routine.Leads refusals items rest) (only : routine.Only allowed cycles) :
    rest.Only allowed cycles := by
  induction leads with
  | here routine => exact only
  | look station later inductionHypothesis => exact inductionHypothesis (only station)
  | act later inductionHypothesis => exact inductionHypothesis only.2
  | refused possible later inductionHypothesis => exact inductionHypothesis (only _)
  | asked outcome later inductionHypothesis => exact inductionHypothesis (only outcome)
  | transmitted outcome later inductionHypothesis => exact False.elim only
  | paused later inductionHypothesis => exact inductionHypothesis only
  | rested later inductionHypothesis => exact inductionHypothesis only
  | claimed later inductionHypothesis => exact inductionHypothesis only.2
  | released later inductionHypothesis => exact inductionHypothesis only

theorem Only.andThen {routine : Routine α} {follow : α → Routine β}
    (first : routine.Only allowed cycles) (second : ∀ value, (follow value).Only allowed cycles) :
    (routine.andThen follow).Only allowed cycles := by
  induction routine with
  | done value => exact second value
  | look next inductionHypothesis => exact fun station => inductionHypothesis station (first station)
  | act action next inductionHypothesis => exact ⟨first.1, inductionHypothesis first.2⟩
  | ask command next inductionHypothesis => exact fun outcome => inductionHypothesis outcome (first outcome)
  | transmit bytes bound next inductionHypothesis => exact first
  | pause duration next inductionHypothesis => exact inductionHypothesis first
  | rest next inductionHypothesis => exact inductionHypothesis first
  | claim next inductionHypothesis => exact ⟨first.1, inductionHypothesis first.2⟩
  | release next inductionHypothesis => exact inductionHypothesis first

end Routine

/-- The outcome that a caller is told when its exchange ends. -/
def Event.outcome? (number : Nat) : Event → Option (String × Except Fault String)
  | .ended caller command outcome =>
    if caller = number then some (command, outcome.map QueuedLine.text) else none
  | _ => none

theorem Event.outcome?_own (number : Nat) (command : String) (outcome : Except Fault QueuedLine) :
    outcome? number (.ended number command outcome) =
      some (command, outcome.map QueuedLine.text) := by
  simp [outcome?]

theorem Event.outcome?_other {number caller : Nat} (different : number ≠ caller) (command : String)
    (outcome : Except Fault QueuedLine) : outcome? number (.ended caller command outcome) = none := by
  simp [outcome?, Ne.symm different]

/-- The outcomes of the exchanges of a caller, from the first to the latest. -/
def Journal.outcomes (number : Nat) (journal : List Entry) : List (String × Except Fault String) :=
  collect (Event.outcome? number) journal

/-- A caller that has been told a line has taken it at the end of an exchange. -/
theorem Journal.exists_ended_of_outcome {number : Nat} {journal : List Entry} {command text : String}
    (told : (command, .ok text) ∈ outcomes number journal) :
    ∃ later past time line,
      journal = later ++ ⟨time, .ended number command (.ok line)⟩ :: past ∧ line.text = text := by
  obtain ⟨⟨time, event⟩, member, outcome⟩ := mem_collect.mp told
  obtain ⟨later, past, rfl⟩ := List.append_of_mem member
  cases event with
  | ended caller own result =>
      simp only [Event.outcome?] at outcome
      split at outcome
      next same =>
        subst same
        obtain ⟨rfl, same⟩ := Prod.mk.inj (Option.some.inj outcome)
        cases result with
        | ok line =>
            cases same
            exact ⟨later, past, time, line, rfl, rfl⟩
        | error fault => contradiction
      next => contradiction
  | _ => contradiction

namespace Bench

variable {σ α : Type} {read : Event → Option α}

/-- A reading that heeds neither acts nor lines finds nothing new when a caller acts. -/
theorem collect_perform (deaf : ∀ lines, read (.received lines) = none)
    (blind : ∀ caller act, read (.did caller act) = none) (caller : Nat) (act : Act)
    (bench : Bench σ) :
    Journal.collect read (bench.onStation (Station.perform caller act)).journal =
      Journal.collect read bench.journal := by
  have receiving (bytes : List UInt8) :
      Journal.collect read (bench.onStation (Station.receive bytes)).journal =
        Journal.collect read bench.journal := Journal.collect_cons_none _ (deaf _)
  cases act with
  | receive bytes => exact (Journal.collect_cons_none _ (blind _ _)).trans (receiving bytes)
  | _ => exact Journal.collect_cons_none _ (blind _ _)

theorem collect_deliver (deaf : ∀ lines, read (.received lines) = none) (index : Nat)
    (bench : Bench σ) :
    Journal.collect read (bench.deliver index).journal = Journal.collect read bench.journal := by
  unfold deliver
  split
  · exact Journal.collect_cons_none _ (deaf _)
  · exact Journal.collect_cons_none _ (deaf _)
  · rfl
  · rfl

theorem outcomes_endTransmission (number caller : Nat) (bytes : List UInt8)
    (result : Except Fault Unit) (bench : Bench σ) :
    Journal.outcomes number (bench.endTransmission caller bytes result).journal =
      Journal.outcomes number bench.journal := by
  cases result with
  | ok done => exact Journal.collect_cons_none _ rfl
  | error fault => rfl

theorem outcomes_started (number caller : Nat) (command : String) (bench : Bench σ) :
    Journal.outcomes number (bench.started caller command).journal =
      Journal.outcomes number bench.journal := Journal.collect_cons_none _ rfl

theorem outcomes_writeFailed_own (number : Nat) (command : String) (fault : Fault)
    (bench : Bench σ) :
    Journal.outcomes number (bench.writeFailed number command fault).journal =
      Journal.outcomes number bench.journal ++ [(command, .error (writeFault command fault))] := by
  cases fault <;> exact Journal.collect_cons_some _ (Event.outcome?_own number command _)

theorem outcomes_writeFailed_other {number caller : Nat} (different : number ≠ caller)
    (command : String) (fault : Fault) (bench : Bench σ) :
    Journal.outcomes number (bench.writeFailed caller command fault).journal =
      Journal.outcomes number bench.journal := by
  cases fault <;> exact Journal.collect_cons_none _ (Event.outcome?_other different command _)

end Bench

/-- The part of its routine that a caller still has before it. -/
def Caller.At {α : Type} : Caller α → Routine α → Prop
  | ready routine, rest => rest = routine
  | asleep _ routine, rest => rest = routine
  | queued command next, rest => ∃ whole, command = Text.stripLineEnd whole ∧ rest = .ask whole next
  | writing command _ _ next, rest =>
    ∃ whole, command = Text.stripLineEnd whole ∧ rest = .ask whole next
  | awaiting command _ next, rest =>
    ∃ whole, command = Text.stripLineEnd whole ∧ rest = .ask whole next
  | transmitting bytes _ _ next, rest => ∃ bound, rest = .transmit bytes bound next
  | claiming routine, rest => rest = .claim routine
  | finished _ value, rest => rest = .done value

namespace Advance

variable {α σ : Type} {number : Nat} {bench after : Bench σ} {caller next : Caller α}

/-- Others are told nothing. -/
theorem outcomes_other (advance : Advance number bench caller after next) {other : Nat}
    (different : other ≠ number) :
    Journal.outcomes other after.journal = Journal.outcomes other bench.journal := by
  cases advance with
  | act action follow => exact Bench.collect_perform (fun _ => rfl) (fun _ _ => rfl) number action bench
  | failAtOnce =>
      exact (Bench.outcomes_writeFailed_other different _ _ _).trans (Bench.outcomes_started _ _ _ _)
  | failLate => exact Bench.outcomes_writeFailed_other different _ _ _
  | takeLine => exact Journal.collect_cons_none _ (Event.outcome?_other different _ _)
  | wakeInVain => exact Journal.collect_cons_none _ (Event.outcome?_other different _ _)
  | timeOut => exact Journal.collect_cons_none _ (Event.outcome?_other different _ _)
  | endTransmission => exact Bench.outcomes_endTransmission other number _ _ _
  | start => exact Bench.outcomes_started other number _ bench
  | write => exact Journal.collect_cons_none _ rfl
  | claim => exact Journal.collect_cons_none _ rfl
  | release => exact Journal.collect_cons_none _ rfl
  | _ => rfl

/-- A caller goes on in its routine with the outcomes that the journal records meanwhile. -/
theorem leads {refusals : Prop} (advance : Advance number bench caller after next)
    (possible : bench.isOpen = false → refusals) {rest : Routine α} (here : caller.At rest) :
    ∃ items later, rest.Leads refusals items later ∧ next.At later ∧
      Journal.outcomes number after.journal = Journal.outcomes number bench.journal ++ items := by
  -- Most advances take no exchange to its end.
  have silent {later : Routine α} (leads : rest.Leads refusals [] later) (stands : next.At later)
      (same : Journal.outcomes number after.journal = Journal.outcomes number bench.journal) :
      ∃ items later, rest.Leads refusals items later ∧ next.At later ∧
        Journal.outcomes number after.journal = Journal.outcomes number bench.journal ++ items :=
    ⟨[], later, leads, stands, by rw [same, List.append_nil]⟩
  cases advance with
  | finish value =>
      cases here
      exact silent (.here _) rfl rfl
  | look follow =>
      cases here
      exact silent (.look bench.station (.here _)) rfl rfl
  | act action follow =>
      cases here
      exact silent (.act (.here _)) rfl (Bench.collect_perform (fun _ => rfl) (fun _ _ => rfl) _ _ _)
  | refuse command follow closed =>
      cases here
      exact silent (.refused (possible closed) (.here _)) rfl rfl
  | join command follow isOpen =>
      cases here
      exact silent (.here _) ⟨command, rfl, rfl⟩ rfl
  | start first course => exact silent (.here _) here (Bench.outcomes_started _ _ _ _)
  | failAtOnce first course =>
      obtain ⟨whole, rfl, rfl⟩ := here
      refine ⟨_, _, .asked _ (.here _), rfl, ?_⟩
      rw [Bench.outcomes_writeFailed_own, Bench.outcomes_started]
  | write due => exact silent (.here _) here (Journal.collect_cons_none _ rfl)
  | failLate due =>
      obtain ⟨whole, rfl, rfl⟩ := here
      exact ⟨_, _, .asked _ (.here _), rfl, Bench.outcomes_writeFailed_own _ _ _ _⟩
  | takeLine due first =>
      obtain ⟨whole, rfl, rfl⟩ := here
      exact ⟨_, _, .asked _ (.here _), rfl, Journal.collect_cons_some _ (Event.outcome?_own _ _ _)⟩
  | wakeInVain empty woken =>
      obtain ⟨whole, rfl, rfl⟩ := here
      exact ⟨_, _, .asked _ (.here _), rfl, Journal.collect_cons_some _ (Event.outcome?_own _ _ _)⟩
  | timeOut empty asleep due =>
      obtain ⟨whole, rfl, rfl⟩ := here
      exact ⟨_, _, .asked _ (.here _), rfl, Journal.collect_cons_some _ (Event.outcome?_own _ _ _)⟩
  | failTransmission course =>
      cases here
      exact silent (.transmitted _ (.here _)) rfl rfl
  | startTransmission course =>
      cases here
      exact silent (.here _) ⟨_, rfl⟩ rfl
  | endTransmission due =>
      obtain ⟨bound, rfl⟩ := here
      exact silent (.transmitted _ (.here _)) rfl (Bench.outcomes_endTransmission _ _ _ _ _)
  | skip follow =>
      cases here
      exact silent (.paused (.here _)) rfl rfl
  | sleep follow positive =>
      cases here
      exact silent (.paused (.here _)) rfl rfl
  | wake due => exact silent (.here _) here rfl
  | rest follow =>
      cases here
      exact silent (.rested (.here _)) rfl rfl
  | enlist follow =>
      cases here
      exact silent (.here _) rfl rfl
  | claim first =>
      cases here
      exact silent (.claimed (.here _)) rfl (Journal.collect_cons_none _ rfl)
  | release follow =>
      cases here
      exact silent (.released (.here _)) rfl (Journal.collect_cons_none _ rfl)

end Advance

namespace Traffic

variable {α σ : Type}

/-- Every caller has come as far in its routine as the outcomes in the journal lead it. -/
def IsTold (refusals : Prop) (routines : List (Routine α)) (traffic : Traffic α σ) : Prop :=
  ∀ (index : Nat) (caller : Caller α), traffic.callers[index]? = some caller →
    ∃ routine rest, routines[index]? = some routine ∧
      routine.Leads refusals (Journal.outcomes index traffic.journal) rest ∧ caller.At rest

namespace IsTold

variable {refusals : Prop} {routines : List (Routine α)} {before after : Traffic α σ}

theorem of_fresh (refusals : Prop) {first : Bench σ} (fresh : first.IsFresh)
    (routines : List (Routine α)) : (start first routines).IsTold refusals routines := by
  intro index caller here
  obtain ⟨routine, found, rfl⟩ := ready_of_start here
  have empty : (start first routines).journal = [] := fresh.journal
  rw [empty]
  exact ⟨routine, routine, found, .here routine, rfl⟩

theorem beat (told : before.IsTold refusals routines) (beat : before.Beat after)
    (possible : before.bench.isOpen = false → refusals) : after.IsTold refusals routines := by
  -- Only the caller that advances is told something.
  have unchanged (bench : Bench σ) (same : ∀ number, Journal.outcomes number bench.journal =
      Journal.outcomes number before.bench.journal) :
      IsTold refusals routines ⟨bench, before.callers⟩ := by
    intro index caller here
    obtain ⟨routine, rest, found, leads, stands⟩ := told index caller here
    refine ⟨routine, rest, found, ?_, stands⟩
    rw [show Journal.outcomes index (Traffic.journal ⟨bench, before.callers⟩) = _ from same index]
    exact leads
  cases beat with
  | @advance index caller next bench here advance =>
      refine forall_set ?_ fun other standing differ there => ?_
      · obtain ⟨routine, rest, found, leads, stands⟩ := told index caller here
        obtain ⟨items, later, goesOn, standsLater, recorded⟩ := advance.leads possible stands
        refine ⟨routine, later, found, ?_, standsLater⟩
        change routine.Leads refusals (Journal.outcomes index bench.journal) later
        rw [recorded]
        exact leads.trans goesOn
      · obtain ⟨routine, rest, found, leads, stands⟩ := told other standing there
        refine ⟨routine, rest, found, ?_, stands⟩
        change routine.Leads refusals (Journal.outcomes other bench.journal) rest
        rw [advance.outcomes_other differ]
        exact leads
  | deliver index possible =>
      exact unchanged _ fun _ => Bench.collect_deliver (fun _ => rfl) index before.bench
  | tick possible => exact unchanged _ fun number => Journal.collect_cons_none _ rfl
  | elapse possible => exact unchanged _ fun number => rfl

/-- A caller has only such things before it as its routine does. -/
theorem only {allowed : Act → Prop} {cycles : Prop} {traffic : Traffic α σ}
    (told : traffic.IsTold refusals routines)
    (only : ∀ routine ∈ routines, routine.Only allowed cycles)
    {index : Nat} {caller : Caller α} (here : traffic.callers[index]? = some caller) :
    ∃ rest, caller.At rest ∧ rest.Only allowed cycles := by
  obtain ⟨routine, rest, found, leads, stands⟩ := told index caller here
  exact ⟨rest, stands, leads.only (only routine (List.mem_of_getElem? found))⟩

end IsTold

/-- After every run, callers have been told what the journal records, apart from refusals. -/
theorem Reaches.told {first : Bench σ} (fresh : first.IsFresh) {routines : List (Routine α)}
    {last : Traffic α σ} (reached : (Traffic.start first routines).Reaches last) :
    last.IsTold True routines :=
  reached.invariant (IsTold True routines) (.of_fresh True fresh routines)
    fun _ _ beat told => told.beat beat fun _ => trivial

end Traffic

end DelayGenerator
