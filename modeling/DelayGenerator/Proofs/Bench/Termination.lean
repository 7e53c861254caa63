/-
This file shows that every run ends. Unless the ticker runs, the callers come to the end of their
routines, and the ones that do not wait for the turn to run a cycle.
-/

import DelayGenerator.Proofs.Bench.Chronicle

namespace DelayGenerator

namespace Caller

variable {α : Type}

/-- A caller may stand so after an advance. -/
def Follows (σ : Type) (next caller : Caller α) : Prop :=
  ∃ (number : Nat) (bench after : Bench σ), Advance number bench caller after next

variable {σ : Type}

theorem acc_finished (time : Nat) (value : α) : Acc (Follows σ) (finished time value) := by
  constructor
  rintro next ⟨number, bench, after, advance⟩
  cases advance

section

variable {follow : Except Fault String → Routine α}
  (later : ∀ outcome, Acc (Follows σ) (ready (follow outcome)))

include later

theorem acc_awaiting (command : String) (deadline : Nat) :
    Acc (Follows σ) (awaiting command deadline follow) := by
  constructor
  rintro next ⟨number, bench, after, advance⟩
  cases advance with
  | takeLine due first => exact later _
  | wakeInVain empty woken => exact later _
  | timeOut empty asleep due => exact later _

theorem acc_writing (command : String) (finish : Nat) (result : Except Fault Unit) :
    Acc (Follows σ) (writing command finish result follow) := by
  constructor
  rintro next ⟨number, bench, after, advance⟩
  cases advance with
  | write due => exact acc_awaiting later _ _
  | failLate due => exact later _

theorem acc_queued (command : String) : Acc (Follows σ) (queued command follow) := by
  constructor
  rintro next ⟨number, bench, after, advance⟩
  cases advance with
  | start first course => exact acc_writing later _ _ _
  | failAtOnce first course => exact later _

end

theorem acc_transmitting {follow : Except Fault Unit → Routine α}
    (later : ∀ outcome, Acc (Follows σ) (ready (follow outcome))) (bytes : List UInt8)
    (finish : Nat) (result : Except Fault Unit) :
    Acc (Follows σ) (transmitting bytes finish result follow) := by
  constructor
  rintro next ⟨number, bench, after, advance⟩
  cases advance with
  | endTransmission due => exact later _

theorem acc_asleep {routine : Routine α} (later : Acc (Follows σ) (ready routine)) (wake : Nat) :
    Acc (Follows σ) (asleep wake routine) := by
  constructor
  rintro next ⟨number, bench, after, advance⟩
  cases advance with
  | wake due => exact later

theorem acc_claiming {routine : Routine α} (later : Acc (Follows σ) (ready routine)) :
    Acc (Follows σ) (claiming routine) := by
  constructor
  rintro next ⟨number, bench, after, advance⟩
  cases advance with
  | claim first => exact later

/-- A caller comes to the end of its routine. -/
theorem acc_ready (routine : Routine α) : Acc (Follows σ) (ready routine) := by
  induction routine with
  | done value =>
      constructor
      rintro next ⟨number, bench, after, advance⟩
      cases advance with
      | finish => exact acc_finished _ _
  | look follow inductionHypothesis =>
      constructor
      rintro next ⟨number, bench, after, advance⟩
      cases advance with
      | look => exact inductionHypothesis _
  | act action follow inductionHypothesis =>
      constructor
      rintro next ⟨number, bench, after, advance⟩
      cases advance with
      | act => exact inductionHypothesis
  | ask command follow inductionHypothesis =>
      constructor
      rintro next ⟨number, bench, after, advance⟩
      cases advance with
      | refuse => exact inductionHypothesis _
      | join => exact acc_queued inductionHypothesis _
  | transmit bytes bound follow inductionHypothesis =>
      constructor
      rintro next ⟨number, bench, after, advance⟩
      cases advance with
      | failTransmission course => exact inductionHypothesis _
      | startTransmission course => exact acc_transmitting inductionHypothesis _ _ _
  | pause duration follow inductionHypothesis =>
      constructor
      rintro next ⟨number, bench, after, advance⟩
      cases advance with
      | skip => exact inductionHypothesis
      | sleep => exact acc_asleep inductionHypothesis _
  | rest follow inductionHypothesis =>
      constructor
      rintro next ⟨number, bench, after, advance⟩
      cases advance with
      | rest => exact inductionHypothesis
  | claim follow inductionHypothesis =>
      constructor
      rintro next ⟨number, bench, after, advance⟩
      cases advance with
      | enlist => exact acc_claiming inductionHypothesis
  | release follow inductionHypothesis =>
      constructor
      rintro next ⟨number, bench, after, advance⟩
      cases advance with
      | release => exact inductionHypothesis

theorem acc (caller : Caller α) : Acc (Follows σ) caller := by
  cases caller with
  | ready routine => exact acc_ready routine
  | asleep wake routine => exact acc_asleep (acc_ready routine) wake
  | queued command follow => exact acc_queued (fun _ => acc_ready _) command
  | writing command finish result follow => exact acc_writing (fun _ => acc_ready _) _ _ _
  | awaiting command deadline follow => exact acc_awaiting (fun _ => acc_ready _) _ _
  | transmitting bytes finish result follow => exact acc_transmitting (fun _ => acc_ready _) _ _ _
  | claiming routine => exact acc_claiming (acc_ready routine)
  | finished time value => exact acc_finished time value

/-- One of several callers has advanced. -/
def OneFollows (σ : Type) (later callers : List (Caller α)) : Prop :=
  ∃ index caller next, callers[index]? = some caller ∧ Follows σ next caller ∧
    later = callers.set index next

theorem acc_cons {caller : Caller α} {callers : List (Caller α)} (first : Acc (Follows σ) caller)
    (others : Acc (OneFollows σ) callers) : Acc (OneFollows σ) (caller :: callers) := by
  induction first generalizing callers with
  | intro caller _ firstHypothesis =>
      induction others with
      | intro callers accessible othersHypothesis =>
          constructor
          rintro later ⟨index, standing, next, here, follows, rfl⟩
          cases index with
          | zero =>
              cases Option.some.inj here
              exact firstHypothesis next follows (.intro callers accessible)
          | succ index => exact othersHypothesis _ ⟨index, standing, next, here, follows, rfl⟩

/-- Callers that advance one at a time come to the ends of their routines. -/
theorem acc_list (callers : List (Caller α)) : Acc (OneFollows σ) callers := by
  induction callers with
  | nil =>
      constructor
      rintro later ⟨index, caller, next, here, _⟩
      contradiction
  | cons caller callers inductionHypothesis => exact acc_cons caller.acc inductionHypothesis

end Caller

namespace Delivery

/-- How often something may come in yet. -/
def load : List Delivery → Nat
  | [] => 0
  | delivery :: others => delivery.chunks.length + 1 + load others

theorem load_eraseIdx {deliveries : List Delivery} {index : Nat} {delivery : Delivery}
    (here : deliveries[index]? = some delivery) :
    load (deliveries.eraseIdx index) + (delivery.chunks.length + 1) = load deliveries := by
  induction deliveries generalizing index with
  | nil => contradiction
  | cons first others inductionHypothesis =>
      cases index with
      | zero =>
          cases Option.some.inj here
          simp only [List.eraseIdx_cons_zero, load]
          omega
      | succ index =>
          have rest := inductionHypothesis here
          simp only [List.eraseIdx_cons_succ, load]
          omega

end Delivery

namespace Bench

variable {σ : Type}

theorem load_deliver {bench : Bench σ} {index : Nat} (possible : bench.canDeliver index = true) :
    Delivery.load (bench.deliver index).deliveries < Delivery.load bench.deliveries := by
  unfold canDeliver at possible
  split at possible
  · rename_i delivery here
    have less := Delivery.load_eraseIdx here
    unfold deliver
    rw [here]
    obtain ⟨due, chunks⟩ := delivery
    match chunks with
    | [] =>
        change Delivery.load (bench.deliveries.eraseIdx index) < _
        omega
    | [chunk] =>
        change Delivery.load (bench.deliveries.eraseIdx index) < _
        omega
    | chunk :: next :: rest =>
        change Delivery.load (⟨due, next :: rest⟩ :: bench.deliveries.eraseIdx index) < _
        simp only [List.length_cons] at less
        simp only [Delivery.load, List.length_cons]
        omega
  · contradiction

/-- The ticker does not run. -/
def IsStopped (bench : Bench σ) : Prop := bench.station.ticker.due = none

theorem IsStopped.deliver {bench : Bench σ} (stopped : bench.IsStopped) (index : Nat) :
    (bench.deliver index).IsStopped := by
  unfold Bench.deliver
  split <;> exact stopped

end Bench

/-- Nobody starts the ticker. -/
theorem Advance.isStopped {α σ : Type} {number : Nat} {bench after : Bench σ}
    {caller next : Caller α} (advance : Advance number bench caller after next)
    (stopped : bench.IsStopped) : after.IsStopped := by
  cases advance with
  | act action follow =>
      cases action with
      | stopTicker => rfl
      | _ => exact stopped
  | @failAtOnce command follow fault => cases fault <;> exact stopped
  | @failLate command follow finish fault => cases fault <;> exact stopped
  | @endTransmission bytes finish follow result => cases result <;> exact stopped
  | _ => exact stopped

namespace Traffic

variable {α σ : Type}

/-- How often something may happen before a caller advances: chunks come in, and time passes between
them. -/
def leisure (traffic : Traffic α σ) : Nat :=
  2 * Delivery.load traffic.bench.deliveries + if traffic.isBusy then 0 else 1

theorem leisure_deliver {traffic : Traffic α σ} {index : Nat}
    (possible : traffic.can (.deliver index) = true) :
    (traffic.make (.deliver index)).leisure < traffic.leisure := by
  have less := Bench.load_deliver possible
  change 2 * Delivery.load (traffic.bench.deliver index).deliveries + _ < _
  unfold leisure
  split <;> split <;> omega

/-- When time has passed, something is due. -/
theorem leisure_elapse {traffic : Traffic α σ} (possible : traffic.can .elapse = true) :
    (traffic.make .elapse).leisure < traffic.leisure := by
  obtain ⟨time, made, _, member, _⟩ := clock_elapse possible
  have busy : (traffic.setClock time).isBusy = true :=
    isBusy_of_deadline (show time ∈ (traffic.setClock time).deadlines from member) (Nat.le_refl time)
  have idle : traffic.isBusy = false := by
    simp only [can, Bool.and_eq_true, Bool.not_eq_true'] at possible
    exact possible.1
  rw [made]
  unfold leisure
  rw [busy, idle]
  change 2 * Delivery.load traffic.bench.deliveries + 0 < 2 * Delivery.load traffic.bench.deliveries + 1
  omega

/-- No run of beats goes on for ever. -/
theorem acc_beat (bench : Bench σ) (stopped : bench.IsStopped) (callers : List (Caller α)) :
    Acc (fun after before : Traffic α σ => before.Beat after) ⟨bench, callers⟩ := by
  have accessible : Acc (Caller.OneFollows σ) callers := Caller.acc_list callers
  -- The callers advance finitely often, and meanwhile the leisure shrinks.
  induction accessible generalizing bench with
  | intro callers _ callersHypothesis =>
      generalize measured : leisure ⟨bench, callers⟩ = measure
      induction measure using Nat.strongRecOn generalizing bench with
      | ind measure leisureHypothesis =>
          constructor
          intro after beat
          cases beat with
          | advance here advance =>
              exact callersHypothesis _ ⟨_, _, _, here, ⟨_, _, _, advance⟩, rfl⟩ _
                (advance.isStopped stopped)
          | deliver index possible =>
              have less := leisure_deliver possible
              rw [measured] at less
              exact leisureHypothesis _ less _ (stopped.deliver index) rfl
          | tick possible =>
              change bench.station.ticker.isDue _ = true at possible
              rw [Ticker.isDue, show bench.station.ticker.due = none from stopped] at possible
              contradiction
          | elapse possible =>
              have less := leisure_elapse possible
              rw [measured] at less
              exact leisureHypothesis _ less _ stopped rfl

/-- A ticker that does not run never runs. -/
theorem Reaches.isStopped {first last : Traffic α σ} (reached : first.Reaches last)
    (stopped : first.bench.IsStopped) : last.bench.IsStopped := by
  refine reached.invariant (fun traffic => traffic.bench.IsStopped) stopped ?_
  intro before after beat stopped
  cases beat with
  | advance here advance => exact advance.isStopped stopped
  | deliver index possible => exact stopped.deliver index
  | tick possible =>
      change before.bench.station.ticker.isDue _ = true at possible
      rw [Ticker.isDue, show before.bench.station.ticker.due = none from stopped] at possible
      contradiction
  | elapse possible => exact stopped

/-- No run goes on for ever unless the ticker does. -/
theorem acc_step (traffic : Traffic α σ) (stopped : traffic.bench.IsStopped) :
    Acc (fun after before : Traffic α σ => before.Step after) traffic := by
  have beats := (acc_beat traffic.bench stopped traffic.callers).transGen
  apply Subrelation.accessible _ beats
  intro after before step
  exact Relation.transGen_swap.mpr step.beats

/-- When nobody can go on, a caller has finished, waits for the turn to run a cycle, or there is an instant
for which somebody waits. -/
theorem IsRegular.waits_of_still {start : Link} {traffic : Traffic α σ}
    (regular : traffic.IsRegular start)
    (still : ∀ (other : Nat) (standing : Caller α), traffic.callers[other]? = some standing →
      standing.canGoOn traffic.bench other = false)
    {index : Nat} {caller : Caller α} (here : traffic.callers[index]? = some caller) :
    caller.isFinished = true ∨ (∃ routine, caller = .claiming routine) ∨
      ∃ standing ∈ traffic.callers, ∃ deadline, standing.deadline? = some deadline := by
  have timed (other : Nat) {standing : Caller α} (there : traffic.callers[other]? = some standing)
      {deadline : Nat} (waits : standing.deadline? = some deadline) :
      ∃ standing ∈ traffic.callers, ∃ deadline, standing.deadline? = some deadline :=
    ⟨standing, List.mem_of_getElem? there, deadline, waits⟩
  cases caller with
  | finished time value => exact Or.inl rfl
  | claiming routine => exact Or.inr (Or.inl ⟨routine, rfl⟩)
  | ready routine => exact absurd (still index _ here) (by simp [Caller.canGoOn])
  | asleep wake routine => exact Or.inr (Or.inr (timed index here rfl))
  | writing command finish result next => exact Or.inr (Or.inr (timed index here rfl))
  | awaiting command deadline next => exact Or.inr (Or.inr (timed index here rfl))
  | transmitting bytes finish result next => exact Or.inr (Or.inr (timed index here rfl))
  | queued command next =>
      -- The first in the line could go on.
      have member : index ∈ traffic.bench.sendLine :=
        (regular.inLine index).mpr ⟨_, here, rfl⟩
      obtain ⟨first, rest, line⟩ := List.exists_cons_of_ne_nil (List.ne_nil_of_mem member)
      have inside : first ∈ traffic.bench.sendLine := by rw [line]; exact List.mem_cons_self
      obtain ⟨standing, there, inLine⟩ := (regular.inLine first).mp inside
      cases standing with
      | queued command next =>
          have waits := still first _ there
          simp [Caller.canGoOn, line] at waits
      | writing command finish result next => exact Or.inr (Or.inr (timed first there rfl))
      | awaiting command deadline next => exact Or.inr (Or.inr (timed first there rfl))
      | _ => contradiction

/-- When nothing can happen any more, nobody can go on. -/
theorem canGoOn_of_stuck {traffic : Traffic α σ} (stuck : ∀ move, traffic.can move = false) (index : Nat)
    (caller : Caller α) (here : traffic.callers[index]? = some caller) :
    caller.canGoOn traffic.bench index = false := by
  have turn := stuck (.turn index)
  simp only [can, canTurn, here] at turn
  exact turn

/-- When nothing can happen any more, nothing is due. -/
theorem isBusy_of_stuck {traffic : Traffic α σ} (stuck : ∀ move, traffic.can move = false) :
    traffic.isBusy = false := by
  cases busy : traffic.isBusy with
  | false => rfl
  | true =>
      rcases isBusy_iff.mp busy with ⟨other, possible⟩ | ⟨delivery, coming, due⟩ | ticks
      · have turn := stuck (.turn other)
        rw [can, possible] at turn
        contradiction
      · obtain ⟨other, there⟩ := List.mem_iff_getElem?.mp coming
        have deliver := stuck (.deliver other)
        simp only [can, Bench.canDeliver, there, Delivery.isDue, decide_eq_false_iff_not] at deliver
        exact absurd due deliver
      · have tick := stuck .tick
        rw [can, ticks] at tick
        contradiction

/-- When nothing can happen any more, every caller has finished or waits for the turn to run a cycle. -/
theorem IsRegular.finished_of_stuck {start : Link} {traffic : Traffic α σ}
    (regular : traffic.IsRegular start) (stuck : ∀ move, traffic.can move = false) {index : Nat}
    {caller : Caller α} (here : traffic.callers[index]? = some caller) :
    caller.isFinished = true ∨ ∃ routine, caller = .claiming routine := by
  have still := canGoOn_of_stuck stuck
  rcases regular.waits_of_still still here with finished | claiming | ⟨standing, waiting, deadline, waits⟩
  · exact Or.inl finished
  · exact Or.inr claiming
  · -- Time could pass up to the instant for which somebody waits.
    have member : deadline ∈ traffic.deadlines := mem_deadlines.mpr (Or.inl ⟨standing, waiting, waits⟩)
    have elapse := stuck .elapse
    simp only [can, isBusy_of_stuck stuck, nextDeadline?_eq, Bool.not_false, Bool.true_and,
      Option.isSome_eq_false_iff, Option.isNone_iff_eq_none, List.min?_eq_none_iff] at elapse
    rw [elapse] at member
    contradiction

end Traffic

end DelayGenerator
