/-
This file shows how time passes: only when nobody can go on, and only up to the next instant at which
somebody can.
-/

import DelayGenerator.Proofs.Bench.Advance

namespace DelayGenerator

/-- A caller that waits for an instant can go on once it has come. -/
theorem Caller.canGoOn_of_deadline {α σ : Type} {caller : Caller α} {bench : Bench σ}
    {number deadline : Nat} (waits : caller.deadline? = some deadline)
    (come : deadline ≤ bench.clock) : caller.canGoOn bench number = true := by
  cases caller <;> simp_all [Caller.deadline?, Caller.canGoOn]

namespace Traffic

variable {α σ : Type} {traffic : Traffic α σ}

theorem nextDeadline?_eq (traffic : Traffic α σ) :
    traffic.nextDeadline? = traffic.deadlines.min? := by
  unfold nextDeadline?
  split <;> simp_all [List.min?]

/-- The next deadline is the earliest one. -/
theorem nextDeadline?_eq_some {time : Nat} (next : traffic.nextDeadline? = some time) :
    time ∈ traffic.deadlines ∧ ∀ deadline ∈ traffic.deadlines, time ≤ deadline := by
  rw [nextDeadline?_eq] at next
  exact List.min?_eq_some_iff.mp next

theorem mem_deadlines {deadline : Nat} :
    deadline ∈ traffic.deadlines ↔
      (∃ caller ∈ traffic.callers, Caller.deadline? caller = some deadline) ∨
      (∃ delivery ∈ traffic.bench.deliveries, delivery.due = deadline) ∨
      traffic.bench.station.ticker.due = some deadline := by
  simp [deadlines]

theorem canTurn_iff {index : Nat} :
    traffic.canTurn index = true ↔
      ∃ caller, traffic.callers[index]? = some caller ∧
        caller.canGoOn traffic.bench index = true := by
  unfold canTurn
  split <;> simp_all

/-- Traffic is busy when a caller can go on, a delivery is due or the ticker fires. -/
theorem isBusy_iff :
    traffic.isBusy = true ↔
      (∃ index, traffic.canTurn index = true) ∨
      (∃ delivery ∈ traffic.bench.deliveries, delivery.due ≤ traffic.clock) ∨
      traffic.bench.canTick = true := by
  have turns : (List.range traffic.callers.length).any traffic.canTurn = true ↔
      ∃ index, traffic.canTurn index = true := by
    simp only [List.any_eq_true, List.mem_range]
    constructor
    · rintro ⟨index, _, possible⟩
      exact ⟨index, possible⟩
    · rintro ⟨index, possible⟩
      obtain ⟨caller, here, _⟩ := canTurn_iff.mp possible
      exact ⟨index, (List.getElem?_eq_some_iff.mp here).1, possible⟩
  simp only [isBusy, Bool.or_eq_true, turns, or_assoc, List.any_eq_true, Delivery.isDue,
    decide_eq_true_eq]

/-- Whatever is due makes traffic busy. -/
theorem isBusy_of_deadline {deadline : Nat} (member : deadline ∈ traffic.deadlines)
    (come : deadline ≤ traffic.clock) : traffic.isBusy = true := by
  rw [isBusy_iff]
  rcases mem_deadlines.mp member with ⟨caller, waiting, waits⟩ | ⟨delivery, coming, rfl⟩ | ticks
  · obtain ⟨index, here⟩ := List.mem_iff_getElem?.mp waiting
    exact Or.inl ⟨index, canTurn_iff.mpr ⟨caller, here, Caller.canGoOn_of_deadline waits come⟩⟩
  · exact Or.inr (Or.inl ⟨delivery, coming, come⟩)
  · refine Or.inr (Or.inr ?_)
    simp only [Bench.canTick, Ticker.isDue, ticks, decide_eq_true_eq]
    exact come

/-- Time passes to the earliest deadline, which is still to come. -/
theorem clock_elapse (possible : traffic.can .elapse = true) :
    ∃ time, traffic.make .elapse = traffic.setClock time ∧ traffic.clock < time ∧
      time ∈ traffic.deadlines ∧ ∀ deadline ∈ traffic.deadlines, time ≤ deadline := by
  simp only [can, Bool.and_eq_true, Bool.not_eq_true', Option.isSome_iff_exists] at possible
  obtain ⟨idle, time, next⟩ := possible
  obtain ⟨member, least⟩ := nextDeadline?_eq_some next
  refine ⟨time, by simp [make, next], ?_, member, least⟩
  apply Nat.lt_of_not_le
  intro come
  rw [isBusy_of_deadline member come] at idle
  contradiction

end Traffic

/-- A write does not end before it starts. -/
theorem Port.le_of_ends {port : Port} {now bound finish : Nat} {result : Except Fault Unit}
    (course : port.write now bound = .ends finish result) : now ≤ finish := by
  unfold write at course
  split at course
  · contradiction
  · split at course
    · contradiction
    · dsimp only at course
      split at course
      · split at course
        · cases course
          omega
        · cases course
          omega
      · cases course
        omega

namespace Bench

variable {σ : Type}

theorem clock_perform (bench : Bench σ) (caller : Nat) (act : Act) :
    (bench.onStation (Station.perform caller act)).clock = bench.clock := by
  cases act <;> rfl

theorem clock_writeFailed (bench : Bench σ) (caller : Nat) (command : String) (fault : Fault) :
    (bench.writeFailed caller command fault).clock = bench.clock := by
  cases fault <;> rfl

theorem clock_endTransmission (bench : Bench σ) (caller : Nat) (bytes : List UInt8)
    (result : Except Fault Unit) :
    (bench.endTransmission caller bytes result).clock = bench.clock := by
  cases result <;> rfl

theorem clock_deliver (bench : Bench σ) (index : Nat) :
    (bench.deliver index).clock = bench.clock := by
  unfold deliver
  split <;> rfl

end Bench

namespace Advance

variable {α σ : Type} {number : Nat} {bench after : Bench σ} {caller next : Caller α}

/-- Callers take no time except by waiting. -/
theorem clock_eq (advance : Advance number bench caller after next) :
    after.clock = bench.clock := by
  cases advance with
  | act action follow => exact Bench.clock_perform _ _ _
  | failAtOnce first course => exact Bench.clock_writeFailed _ _ _ _
  | failLate due => exact Bench.clock_writeFailed _ _ _ _
  | endTransmission due => exact Bench.clock_endTransmission _ _ _ _
  | _ => rfl

/-- What a caller begins to wait for is still to come. -/
theorem clock_le (advance : Advance number bench caller after next) {deadline : Nat}
    (waits : next.deadline? = some deadline) : bench.clock ≤ deadline := by
  cases advance with
  | start first course =>
      cases waits
      exact Port.le_of_ends course
  | startTransmission course =>
      cases waits
      exact Port.le_of_ends course
  | write due =>
      cases waits
      exact Nat.le_add_right _ _
  | sleep follow positive =>
      cases waits
      exact Nat.le_add_right _ _
  | _ => contradiction

end Advance

namespace Traffic

variable {α σ : Type}

/-- Nobody waits for an instant that has passed. -/
def IsOnTime (traffic : Traffic α σ) : Prop :=
  ∀ (index : Nat) (caller : Caller α) (deadline : Nat), traffic.callers[index]? = some caller →
    caller.deadline? = some deadline → traffic.clock ≤ deadline

theorem IsOnTime.beat {before after : Traffic α σ} (onTime : before.IsOnTime)
    (beat : before.Beat after) : after.IsOnTime := by
  cases beat with
  | @advance index caller next bench here advance =>
      have later : ∀ (other : Nat) (standing : Caller α), (before.callers.set index next)[other]? = some standing →
          ∀ deadline, standing.deadline? = some deadline → before.clock ≤ deadline :=
        forall_set (fun deadline => advance.clock_le) fun other standing _ there deadline =>
          onTime other standing deadline there
      intro other standing deadline there waits
      change bench.clock ≤ deadline
      rw [advance.clock_eq]
      exact later other standing there deadline waits
  | deliver index possible =>
      intro other standing deadline there waits
      change (before.bench.deliver index).clock ≤ deadline
      rw [Bench.clock_deliver]
      exact onTime other standing deadline there waits
  | tick possible => exact onTime
  | elapse possible =>
      obtain ⟨time, made, _, _, least⟩ := clock_elapse possible
      rw [made]
      intro other standing deadline there waits
      apply least deadline
      exact mem_deadlines.mpr (Or.inl ⟨standing, List.mem_of_getElem? there, waits⟩)

/-- Time never passes an instant for which a caller waits. -/
theorem Reaches.onTime {first : Bench σ} {routines : List (Routine α)} {last : Traffic α σ}
    (reached : (Traffic.start first routines).Reaches last) : last.IsOnTime := by
  refine reached.invariant IsOnTime ?_ fun _ _ beat onTime => onTime.beat beat
  intro index caller deadline here waits
  obtain ⟨routine, _, rfl⟩ := ready_of_start here
  contradiction

end Traffic

end DelayGenerator
