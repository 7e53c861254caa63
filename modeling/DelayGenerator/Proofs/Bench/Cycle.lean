/-
This file shows that cycles exclude one another: from the entry with which a caller begins a cycle to the
one with which it ends it, nobody else runs a cycle, and nobody else stores a snapshot.
-/

import DelayGenerator.Proofs.Bench.Cache

namespace DelayGenerator

/-- How far a caller has come with its cycles. -/
inductive CycleStage where
  | before
  | inside
  | after
  deriving DecidableEq

/-- A caller that runs one cycle goes through the stages in this order. -/
def CycleStage.rank : CycleStage → Nat
  | before => 0
  | inside => 1
  | after => 2

/-- An event with which a cycle begins or ends. -/
def Event.isTurn : Event → Bool
  | .claimed _ => true
  | .released _ => true
  | _ => false

/-- What a caller may do at a stage: it may run one cycle, or another one if it runs cycles `again`. It
stores snapshots only in a cycle, and exchanges commands only in a cycle unless it exchanges some
`outside`. -/
def Event.Fits (again outside : Prop) (stage : CycleStage) : Event → Prop
  | .did _ (.store _) => stage = .inside
  | .claimed _ => stage = .before ∨ again ∧ stage = .after
  | .released _ => stage = .inside
  | .began _ _ _ => stage = .inside ∨ outside
  | .wrote _ _ _ => stage = .inside ∨ outside
  | .ended _ _ _ => stage = .inside ∨ outside
  | _ => True

namespace Journal

/-- The stage at which a caller is after the entries of a journal. -/
def cycleStage (number : Nat) : List Entry → CycleStage
  | [] => .before
  | ⟨_, .claimed caller⟩ :: past => if caller = number then .inside else cycleStage number past
  | ⟨_, .released caller⟩ :: past => if caller = number then .after else cycleStage number past
  | _ :: past => cycleStage number past

variable {number : Nat} {journal last past : List Entry} {entry : Entry}

theorem cycleStage_cons_of_not_isTurn (number : Nat) (past : List Entry)
    (aside : entry.event.isTurn = false) : cycleStage number (entry :: past) = cycleStage number past := by
  obtain ⟨time, event⟩ := entry
  cases event <;> first | rfl | contradiction

theorem cycleStage_cons_foreign (past : List Entry) (foreign : entry.event.caller? ≠ some number) :
    cycleStage number (entry :: past) = cycleStage number past := by
  obtain ⟨time, event⟩ := entry
  cases event <;> simp_all [cycleStage, Event.caller?]

theorem cycleStage_claimed (number time : Nat) (past : List Entry) :
    cycleStage number (⟨time, .claimed number⟩ :: past) = .inside := by
  simp [cycleStage]

theorem cycleStage_released (number time : Nat) (past : List Entry) :
    cycleStage number (⟨time, .released number⟩ :: past) = .after := by
  simp [cycleStage]

/-- What neither begins nor ends a cycle leaves all callers at their stages. -/
theorem Grows.cycleStage_eq (grows : Grows (fun event => event.isTurn = false) journal last) (number : Nat) :
    cycleStage number last = cycleStage number journal := by
  obtain ⟨later, rfl, aside⟩ := grows
  induction later with
  | nil => rfl
  | cons entry later inductionHypothesis =>
      rw [List.cons_append, cycleStage_cons_of_not_isTurn number _ (aside entry List.mem_cons_self)]
      exact inductionHypothesis fun found member => aside found (List.mem_cons_of_mem entry member)

/-- Whatever a caller has done, it was at a stage for it. -/
def IsCyclic (again outside : Prop) (number : Nat) : List Entry → Prop :=
  Every fun past entry =>
    entry.event.caller? = some number → entry.event.Fits again outside (cycleStage number past)

/-- A cycle begins only while nobody runs one. -/
def IsExclusive : List Entry → Prop :=
  Every fun past entry => ∀ caller, entry.event = .claimed caller → ∀ number, cycleStage number past ≠ .inside

/-- Nobody runs a cycle while somebody else does. -/
theorem IsExclusive.eq (exclusive : IsExclusive journal) {other : Nat}
    (inside : cycleStage number journal = .inside) (insideToo : cycleStage other journal = .inside) :
    other = number := by
  induction journal with
  | nil => contradiction
  | cons entry past inductionHypothesis =>
      obtain ⟨own, earlier⟩ := exclusive
      obtain ⟨time, event⟩ := entry
      cases event with
      | claimed caller =>
          have free := own caller rfl
          have mine : caller = number := Classical.byContradiction fun different => free number (by
            simpa [cycleStage, different] using inside)
          have others : caller = other := Classical.byContradiction fun different => free other (by
            simpa [cycleStage, different] using insideToo)
          exact others.symm.trans mine
      | released caller =>
          have mine : caller ≠ number := by
            intro same
            simp [cycleStage, same] at inside
          have others : caller ≠ other := by
            intro same
            simp [cycleStage, same] at insideToo
          simp only [cycleStage, mine, others, if_false] at inside insideToo
          exact inductionHypothesis earlier inside insideToo
      | _ => exact inductionHypothesis earlier inside insideToo

/-- What others do fits the stages of a caller. -/
theorem IsCyclic.grows {again outside : Prop} (cyclic : IsCyclic again outside number journal)
    (grows : Grows (fun event => event.caller? ≠ some number) journal last) :
    IsCyclic again outside number last := by
  obtain ⟨later, rfl, foreign⟩ := grows
  induction later with
  | nil => exact cyclic
  | cons entry later inductionHypothesis =>
      refine ⟨fun own => absurd own (foreign entry List.mem_cons_self), ?_⟩
      exact inductionHypothesis fun found member => foreign found (List.mem_cons_of_mem entry member)

/-- A caller that runs one cycle never goes back to an earlier stage. -/
theorem IsCyclic.rank_le {outside : Prop} {later : List Entry}
    (cyclic : IsCyclic False outside number (later ++ past)) :
    (cycleStage number past).rank ≤ (cycleStage number (later ++ past)).rank := by
  induction later with
  | nil => exact Nat.le_refl _
  | cons entry later inductionHypothesis =>
      refine Nat.le_trans (inductionHypothesis cyclic.2) ?_
      have fits := cyclic.1
      obtain ⟨time, event⟩ := entry
      cases event with
      | claimed caller =>
          by_cases own : caller = number
          · subst own
            have early : cycleStage caller (later ++ past) = .before := by
              simpa [Event.Fits, Event.caller?] using fits
            rw [early]
            exact Nat.zero_le _
          · simp [cycleStage, own]
      | released caller =>
          by_cases own : caller = number
          · subst own
            have runs : cycleStage caller (later ++ past) = .inside := by
              simpa [Event.Fits, Event.caller?] using fits
            rw [runs, List.cons_append, cycleStage_released]
            decide
          · simp [cycleStage, own]
      | _ => exact Nat.le_refl _

/-- A caller that runs one cycle is in it all the time between two points of it. -/
theorem IsCyclic.inside_between {outside : Prop} {later between : List Entry}
    (cyclic : IsCyclic False outside number (later ++ (between ++ past)))
    (early : cycleStage number past = .inside)
    (late : cycleStage number (later ++ (between ++ past)) = .inside) :
    cycleStage number (between ++ past) = .inside := by
  have grown := IsCyclic.rank_le cyclic.of_append
  have growing := cyclic.rank_le
  rw [early] at grown
  rw [late] at growing
  generalize cycleStage number (between ++ past) = stage at grown growing
  cases stage <;> simp_all [CycleStage.rank]

/-- Of callers that write commands only in the one cycle that they run, none writes between two commands of
another one. -/
theorem IsExclusive.apart {time earlier when other : Nat} {command previous foreign : String}
    {answer others reply : List String} {later between : List Entry}
    (exclusive : IsExclusive (later ++ ⟨time, .wrote number command answer⟩ ::
      (between ++ ⟨earlier, .wrote number previous others⟩ :: past)))
    (cyclic : IsCyclic False False number (later ++ ⟨time, .wrote number command answer⟩ ::
      (between ++ ⟨earlier, .wrote number previous others⟩ :: past)))
    (cyclicToo : IsCyclic False False other (later ++ ⟨time, .wrote number command answer⟩ ::
      (between ++ ⟨earlier, .wrote number previous others⟩ :: past)))
    (member : ⟨when, .wrote other foreign reply⟩ ∈ between) : other = number := by
  obtain ⟨after, prior, rfl⟩ := List.append_of_mem member
  rw [List.append_assoc, List.cons_append] at exclusive cyclic cyclicToo
  obtain ⟨fitsLate, cyclic⟩ := cyclic.of_append
  obtain ⟨fitsThere, cyclicThere⟩ := cyclicToo.of_append.2.of_append
  have late := (fitsLate rfl).resolve_right id
  have runsThere := (fitsThere rfl).resolve_right id
  have early := (cyclic.of_append.2.of_append.1 rfl).resolve_right id
  rw [List.append_cons] at cyclic late
  have runs := IsCyclic.inside_between cyclic early late
  exact IsExclusive.eq exclusive.of_append.2.of_append.2 runs runsThere

/-- While a caller runs a cycle, nobody else begins or ends one, or stores a snapshot. -/
theorem IsExclusive.quiet {course : List Entry} (exclusive : IsExclusive (course ++ past))
    (cyclic : ∀ number, IsCyclic True True number (course ++ past))
    (inside : cycleStage number past = .inside)
    (own : ∀ entry ∈ course, entry.event.caller? = some number →
      entry.event.isTurn = false ∧ entry.event.stored? = none) :
    ∀ entry ∈ course, entry.event.isTurn = false ∧ entry.event.stored? = none := by
  induction course with
  | nil => exact fun entry member => by contradiction
  | cons first course inductionHypothesis =>
      have earlier := inductionHypothesis exclusive.2 (fun number => (cyclic number).2)
        fun entry member => own entry (List.mem_cons_of_mem first member)
      have still : cycleStage number (course ++ past) = .inside := by
        have grows : Grows (fun event => event.isTurn = false) past (course ++ past) :=
          ⟨course, rfl, fun entry member => (earlier entry member).1⟩
        rw [grows.cycleStage_eq]
        exact inside
      intro entry member
      rcases List.mem_cons.mp member with rfl | member
      · by_cases mine : entry.event.caller? = some number
        · exact own entry List.mem_cons_self mine
        · -- Somebody else would have to run a cycle at the same time.
          have free := exclusive.1
          have fits (other : Nat) := (cyclic other).1
          have alone (other : Nat) (runs : cycleStage other (course ++ past) = .inside) :
              other = number := IsExclusive.eq exclusive.2 still runs
          obtain ⟨time, event⟩ := entry
          cases event with
          | did caller act =>
              refine ⟨rfl, ?_⟩
              cases act with
              | store snapshot =>
                  have runs : cycleStage caller (course ++ past) = .inside := fits caller rfl
                  exact absurd (congrArg some (alone caller runs)) mine
              | _ => rfl
          | claimed caller => exact absurd still (free caller rfl number)
          | released caller =>
              have runs : cycleStage caller (course ++ past) = .inside := fits caller rfl
              exact absurd (congrArg some (alone caller runs)) mine
          | _ => exact ⟨rfl, rfl⟩
      · exact earlier entry member

end Journal

namespace Routine

variable {α β : Type}

/-- A routine, begun at a stage, claims and releases the turn in pairs, and is done only at a stage at
which it may end. -/
def IsCyclic (again outside : Prop) (ends : CycleStage → Prop) : CycleStage → Routine α → Prop
  | stage, .done _ => ends stage
  | stage, .look next => ∀ station, (next station).IsCyclic again outside ends stage
  | stage, .act action next =>
    (∀ snapshot, action = .store snapshot → stage = .inside) ∧
      next.IsCyclic again outside ends stage
  | stage, .ask _ next =>
    (stage = .inside ∨ outside) ∧ ∀ outcome, (next outcome).IsCyclic again outside ends stage
  | stage, .transmit _ _ next =>
    (stage = .inside ∨ outside) ∧ ∀ outcome, (next outcome).IsCyclic again outside ends stage
  | stage, .pause _ next => next.IsCyclic again outside ends stage
  | stage, .rest next => next.IsCyclic again outside ends stage
  | stage, .claim next =>
    (stage = .before ∨ again ∧ stage = .after) ∧ next.IsCyclic again outside ends .inside
  | stage, .release next => stage = .inside ∧ next.IsCyclic again outside ends .after

variable {again outside : Prop} {ends closes : CycleStage → Prop} {stage : CycleStage}

theorem IsCyclic.andThen {routine : Routine α} {follow : α → Routine β}
    (first : routine.IsCyclic again outside ends stage)
    (second : ∀ value stage, ends stage → (follow value).IsCyclic again outside closes stage) :
    (routine.andThen follow).IsCyclic again outside closes stage := by
  induction routine generalizing stage with
  | done value => exact second value stage first
  | look next inductionHypothesis => exact fun station => inductionHypothesis station (first station)
  | act action next inductionHypothesis => exact ⟨first.1, inductionHypothesis first.2⟩
  | ask command next inductionHypothesis =>
      exact ⟨first.1, fun outcome => inductionHypothesis outcome (first.2 outcome)⟩
  | transmit bytes bound next inductionHypothesis =>
      exact ⟨first.1, fun outcome => inductionHypothesis outcome (first.2 outcome)⟩
  | pause duration next inductionHypothesis => exact inductionHypothesis first
  | rest next inductionHypothesis => exact inductionHypothesis first
  | claim next inductionHypothesis => exact ⟨first.1, inductionHypothesis first.2⟩
  | release next inductionHypothesis => exact ⟨first.1, inductionHypothesis first.2⟩

/-- Looser rules allow more. -/
theorem IsCyclic.mono {more further : Prop} {routine : Routine α}
    (cyclic : routine.IsCyclic again outside ends stage) (repeats : again → more)
    (loosens : outside → further) (widens : ∀ stage, ends stage → closes stage) :
    routine.IsCyclic more further closes stage := by
  induction routine generalizing stage with
  | done value => exact widens stage cyclic
  | look next inductionHypothesis => exact fun station => inductionHypothesis station (cyclic station)
  | act action next inductionHypothesis => exact ⟨cyclic.1, inductionHypothesis cyclic.2⟩
  | ask command next inductionHypothesis =>
      exact ⟨cyclic.1.imp_right loosens, fun outcome => inductionHypothesis outcome (cyclic.2 outcome)⟩
  | transmit bytes bound next inductionHypothesis =>
      exact ⟨cyclic.1.imp_right loosens, fun outcome => inductionHypothesis outcome (cyclic.2 outcome)⟩
  | pause duration next inductionHypothesis => exact inductionHypothesis cyclic
  | rest next inductionHypothesis => exact inductionHypothesis cyclic
  | claim next inductionHypothesis =>
      exact ⟨cyclic.1.imp_right (And.imp_left repeats), inductionHypothesis cyclic.2⟩
  | release next inductionHypothesis => exact ⟨cyclic.1, inductionHypothesis cyclic.2⟩

variable {sees : List Entry → Station → Prop} {refusals : List Entry → Prop} {number : Nat}
  {journal middle last : List Entry} {routine between rest : Routine α}

/-- What a caller does next fits its stage, and the rest of its routine fits the next one. -/
theorem Goes.isCyclic (goes : Goes sees refusals number journal routine middle between)
    (cyclic : routine.IsCyclic again outside ends (Journal.cycleStage number journal))
    (fits : Journal.IsCyclic again outside number journal) :
    between.IsCyclic again outside ends (Journal.cycleStage number middle) ∧
      Journal.IsCyclic again outside number middle := by
  cases goes with
  | look station seen => exact ⟨cyclic station, fits⟩
  | @act action _ time =>
      refine ⟨cyclic.2, fun _ => ?_, fits⟩
      cases action <;> first | trivial | exact cyclic.1 _ rfl
  | refused possible => exact ⟨cyclic.2 _, fits⟩
  | began time mark => exact ⟨cyclic, fun _ => cyclic.1, fits⟩
  | wrote time answer => exact ⟨cyclic, fun _ => cyclic.1, fits⟩
  | ended time outcome => exact ⟨cyclic.2 _, fun _ => cyclic.1, fits⟩
  | passed time command answer => exact ⟨cyclic.2 _, fun _ => cyclic.1, fits⟩
  | failed fault => exact ⟨cyclic.2 _, fits⟩
  | paused => exact ⟨cyclic, fits⟩
  | rested => exact ⟨cyclic, fits⟩
  | claimed time =>
      rw [Journal.cycleStage_claimed]
      exact ⟨cyclic.2, fun _ => cyclic.1, fits⟩
  | released time =>
      rw [Journal.cycleStage_released]
      exact ⟨cyclic.2, fun _ => cyclic.1, fits⟩

/-- Whatever a caller does on its way fits its stage. -/
theorem Traces.isCyclic (traces : Traces sees refusals number journal routine last rest)
    (cyclic : routine.IsCyclic again outside ends (Journal.cycleStage number journal))
    (fits : Journal.IsCyclic again outside number journal) :
    rest.IsCyclic again outside ends (Journal.cycleStage number last) ∧
      Journal.IsCyclic again outside number last := by
  induction traces with
  | here journal routine => exact ⟨cyclic, fits⟩
  | foreign other later inductionHypothesis =>
      apply inductionHypothesis
      · rw [Journal.cycleStage_cons_foreign _ other]
        exact cyclic
      · exact ⟨fun own => absurd own other, fits⟩
  | own goes later inductionHypothesis =>
      obtain ⟨cyclic, fits⟩ := goes.isCyclic cyclic fits
      exact inductionHypothesis cyclic fits

end Routine

/-- What is nobody's doing neither begins nor ends a cycle. -/
theorem Event.isTurn_of_nobody {event : Event} (nobody : event.caller? = none) :
    event.isTurn = false := by
  cases event <;> first | rfl | contradiction

theorem Event.isTurn_of_not_aside {event : Event} (exchange : event.isAside = false) : event.isTurn = false := by
  cases event <;> first | rfl | contradiction

/-- Either a caller leaves the line for cycles alone, or it goes to the end of the line, begins a cycle as
the first in the line, or ends its cycle. -/
theorem Advance.turn_cases {α σ : Type} {number : Nat} {bench after : Bench σ} {caller next : Caller α}
    (advance : Advance number bench caller after next) :
    (after.cycleLine = bench.cycleLine ∧ next.isClaiming = caller.isClaiming ∧
      Journal.Grows (fun event => event.isTurn = false) bench.journal after.journal) ∨
    (∃ follow, caller = .ready (.claim follow) ∧ next = .claiming follow ∧
      after = { bench with cycleLine := bench.cycleLine ++ [number] }) ∨
    (∃ routine, caller = .claiming routine ∧ next = .ready routine ∧
      bench.cycleLine.head? = some number ∧ after = bench.record (.claimed number)) ∨
    (∃ follow, caller = .ready (.release follow) ∧ next = .ready follow ∧
      after = Bench.record (.released number) { bench with cycleLine := bench.cycleLine.tail }) := by
  cases advance.kind with
  | act action follow =>
      obtain ⟨middle, silent, recorded⟩ := bench.journal_perform number action
      refine Or.inl ⟨rfl, rfl, ?_⟩
      rw [recorded]
      exact (silent.mono fun _ => Event.isTurn_of_nobody).trans (.one (by rfl) _)
  | enlist follow => exact Or.inr (Or.inl ⟨follow, rfl, rfl, rfl⟩)
  | @claim routine first => exact Or.inr (Or.inr (Or.inl ⟨routine, rfl, rfl, first, rfl⟩))
  | release follow => exact Or.inr (Or.inr (Or.inr ⟨follow, rfl, rfl, rfl⟩))
  | exchange exchanges same =>
      exact Or.inl ⟨exchanges.cycleLine, same, exchanges.grows.mono fun _ own => Event.isTurn_of_not_aside own.2⟩

namespace Journal

theorem Grows.isExclusive {journal last : List Entry}
    (grows : Grows (fun event => event.isTurn = false) journal last) (exclusive : IsExclusive journal) :
    IsExclusive last := by
  obtain ⟨later, rfl, aside⟩ := grows
  induction later with
  | nil => exact exclusive
  | cons entry later inductionHypothesis =>
      refine ⟨?_, inductionHypothesis fun found member => aside found (List.mem_cons_of_mem entry member)⟩
      intro caller claims
      have aside := aside entry List.mem_cons_self
      rw [claims] at aside
      contradiction

end Journal

namespace Traffic

variable {α σ : Type}

/-- The first in the line for cycles has the turn: whoever runs a cycle stands there, and behind it all who
want to run one. -/
structure IsOrdered (traffic : Traffic α σ) : Prop where
  nodup : traffic.bench.cycleLine.Nodup
  inLine : ∀ index, index ∈ traffic.bench.cycleLine ↔
    ∃ caller, traffic.callers[index]? = some caller ∧
      (caller.isClaiming = true ∨ Journal.cycleStage index traffic.journal = .inside)
  first : ∀ index, Journal.cycleStage index traffic.journal = .inside →
    traffic.bench.cycleLine.head? = some index
  exclusive : Journal.IsExclusive traffic.journal

namespace IsOrdered

variable {before after : Traffic α σ}

theorem of_fresh {first : Bench σ} (fresh : first.IsFresh) (free : first.cycleLine = [])
    (routines : List (Routine α)) : (start first routines).IsOrdered := by
  have empty : (start first routines).journal = [] := fresh.journal
  have line : (start first routines).bench.cycleLine = [] := free
  constructor
  · rw [line]
    exact List.Pairwise.nil
  · intro index
    rw [line, empty]
    simp only [List.not_mem_nil, false_iff, not_exists, not_and]
    intro caller here
    obtain ⟨routine, _, rfl⟩ := ready_of_start here
    simp [Caller.isClaiming, Journal.cycleStage]
  · intro index inside
    rw [empty] at inside
    contradiction
  · rw [empty]
    trivial

/-- What concerns no cycle keeps the order. -/
theorem keep (ordered : before.IsOrdered) {bench : Bench σ} {callers : List (Caller α)}
    (line : bench.cycleLine = before.bench.cycleLine)
    (grows : Journal.Grows (fun event => event.isTurn = false) before.journal bench.journal)
    (same : ∀ index : Nat,
      callers[index]?.map Caller.isClaiming = before.callers[index]?.map Caller.isClaiming) :
    IsOrdered ⟨bench, callers⟩ := by
  constructor
  · change bench.cycleLine.Nodup
    rw [line]
    exact ordered.nodup
  · intro index
    have same := same index
    change index ∈ bench.cycleLine ↔ ∃ caller, callers[index]? = some caller ∧
      (caller.isClaiming = true ∨ Journal.cycleStage index bench.journal = .inside)
    rw [line, ordered.inLine index, grows.cycleStage_eq index]
    cases now : callers[index]? <;> cases earlier : before.callers[index]? <;> simp_all
  · intro index inside
    change Journal.cycleStage index bench.journal = .inside at inside
    rw [grows.cycleStage_eq index] at inside
    change bench.cycleLine.head? = some index
    rw [line]
    exact ordered.first index inside
  · exact grows.isExclusive ordered.exclusive

/-- A caller goes to the end of the line. -/
theorem enlist (ordered : before.IsOrdered) {index : Nat} {follow : Routine α}
    (here : before.callers[index]? = some (.ready (.claim follow)))
    (outside : Journal.cycleStage index before.journal ≠ .inside) :
    IsOrdered ⟨{ before.bench with cycleLine := before.bench.cycleLine ++ [index] },
      before.callers.set index (.claiming follow)⟩ := by
  have absent : index ∉ before.bench.cycleLine := by
    rw [ordered.inLine index]
    simp [here, Caller.isClaiming, outside]
  have inside := (List.getElem?_eq_some_iff.mp here).1
  constructor
  · apply List.nodup_append.mpr
    refine ⟨ordered.nodup, List.pairwise_singleton _ _, ?_⟩
    intro other member last found
    rw [List.mem_singleton.mp found]
    intro same
    rw [same] at member
    exact absent member
  · intro other
    change other ∈ before.bench.cycleLine ++ [index] ↔ ∃ caller,
      (before.callers.set index (.claiming follow))[other]? = some caller ∧
        (caller.isClaiming = true ∨ Journal.cycleStage other before.journal = .inside)
    rw [List.mem_append, ordered.inLine other, List.mem_singleton, List.getElem?_set]
    by_cases same : index = other
    · subst same
      simp [inside, Caller.isClaiming]
    · simp [same, Ne.symm same]
  · intro other runs
    have holds : before.bench.cycleLine.head? = some other := ordered.first other runs
    simp [List.head?_append, holds]
  · exact ordered.exclusive

/-- The first in the line begins its cycle. -/
theorem claim (ordered : before.IsOrdered) {index : Nat} {routine : Routine α}
    (here : before.callers[index]? = some (.claiming routine))
    (outside : Journal.cycleStage index before.journal ≠ .inside)
    (first : before.bench.cycleLine.head? = some index) :
    IsOrdered ⟨before.bench.record (.claimed index), before.callers.set index (.ready routine)⟩ := by
  have inside := (List.getElem?_eq_some_iff.mp here).1
  -- Whoever ran a cycle would be the first in the line.
  have free : ∀ other, Journal.cycleStage other before.journal ≠ .inside := by
    intro other runs
    have holds := ordered.first other runs
    rw [first] at holds
    rw [← Option.some.inj holds] at runs
    exact outside runs
  have stage (other : Nat) : Journal.cycleStage other (before.bench.record (.claimed index)).journal =
      if index = other then .inside else Journal.cycleStage other before.journal := rfl
  constructor
  · exact ordered.nodup
  · intro other
    change other ∈ before.bench.cycleLine ↔ ∃ caller,
      (before.callers.set index (.ready routine))[other]? = some caller ∧
        (caller.isClaiming = true ∨
          Journal.cycleStage other (before.bench.record (.claimed index)).journal = .inside)
    rw [ordered.inLine other, List.getElem?_set, stage]
    by_cases same : index = other
    · subst same
      rw [if_pos rfl, if_pos inside]
      exact iff_of_true ⟨_, here, Or.inl rfl⟩ ⟨_, rfl, Or.inr (if_pos rfl)⟩
    · simp [same]
  · intro other runs
    change Journal.cycleStage other (before.bench.record (.claimed index)).journal = .inside at runs
    rw [stage] at runs
    split at runs
    next same => exact same ▸ first
    next => exact absurd runs (free other)
  · exact ⟨fun caller claims => free, ordered.exclusive⟩

/-- A caller ends its cycle. -/
theorem release (ordered : before.IsOrdered) {index : Nat} {follow : Routine α}
    (here : before.callers[index]? = some (.ready (.release follow)))
    (runs : Journal.cycleStage index before.journal = .inside) :
    IsOrdered ⟨Bench.record (.released index)
        { before.bench with cycleLine := before.bench.cycleLine.tail },
      before.callers.set index (.ready follow)⟩ := by
  have inside := (List.getElem?_eq_some_iff.mp here).1
  obtain ⟨others, line⟩ := List.head?_eq_some_iff.mp (ordered.first index runs)
  have nodup := ordered.nodup
  rw [line] at nodup
  have alone := List.nodup_cons.mp nodup
  have stage (other : Nat) : Journal.cycleStage other (Bench.record (.released index)
        { before.bench with cycleLine := before.bench.cycleLine.tail }).journal =
      if index = other then .after else Journal.cycleStage other before.journal := rfl
  constructor
  · change before.bench.cycleLine.tail.Nodup
    rw [line]
    exact alone.2
  · intro other
    change other ∈ before.bench.cycleLine.tail ↔ ∃ caller,
      (before.callers.set index (.ready follow))[other]? = some caller ∧
        (caller.isClaiming = true ∨ Journal.cycleStage other (Bench.record (.released index)
          { before.bench with cycleLine := before.bench.cycleLine.tail }).journal = .inside)
    have earlier := ordered.inLine other
    rw [line, List.mem_cons] at earlier
    rw [stage, line, List.tail_cons, List.getElem?_set]
    by_cases same : index = other
    · subst same
      simp [inside, alone.1, Caller.isClaiming]
    · simp only [same, Ne.symm same, false_or, if_false] at earlier ⊢
      exact earlier
  · intro other runsToo
    change Journal.cycleStage other (Bench.record (.released index)
      { before.bench with cycleLine := before.bench.cycleLine.tail }).journal = .inside at runsToo
    rw [stage] at runsToo
    split at runsToo
    next => contradiction
    next different => exact absurd (ordered.exclusive.eq runsToo runs) different
  · exact ⟨fun caller claims => by contradiction, ordered.exclusive⟩

/-- Callers that claim and release the turn in pairs keep the order. -/
theorem beat (ordered : before.IsOrdered) (beat : before.Beat after)
    (cyclic : ∀ (index : Nat) (caller : Caller α), before.callers[index]? = some caller →
      ∃ rest, caller.At rest ∧
        rest.IsCyclic True True (· ≠ .inside) (Journal.cycleStage index before.journal)) :
    after.IsOrdered := by
  cases beat with
  | @advance index caller next bench here advance =>
      obtain ⟨rest, stands, fits⟩ := cyclic index caller here
      have inside := (List.getElem?_eq_some_iff.mp here).1
      rcases advance.turn_cases with ⟨line, same, grows⟩ | ⟨follow, rfl, rfl, rfl⟩ |
        ⟨routine, rfl, rfl, first, rfl⟩ | ⟨follow, rfl, rfl, rfl⟩
      · apply ordered.keep line grows
        intro other
        rw [List.getElem?_set]
        by_cases own : index = other
        · subst own
          rw [if_pos rfl, if_pos inside, here, Option.map_some, Option.map_some, same]
        · rw [if_neg own]
      · cases stands
        apply ordered.enlist here
        rcases fits.1 with early | ⟨_, late⟩
        · rw [early]; decide
        · rw [late]; decide
      · cases stands
        apply ordered.claim here _ first
        rcases fits.1 with early | ⟨_, late⟩
        · rw [early]; decide
        · rw [late]; decide
      · cases stands
        exact ordered.release here fits.1
  | deliver index possible =>
      have line : (before.bench.deliver index).cycleLine = before.bench.cycleLine := by
        unfold Bench.deliver
        split <;> rfl
      exact ordered.keep line
        ((before.bench.grows_deliver index).mono fun _ => Event.isTurn_of_nobody) fun _ => rfl
  | tick possible => exact ordered.keep rfl (.one (by rfl) _) fun _ => rfl
  | elapse possible => exact ordered.keep rfl (.refl _ _) fun _ => rfl

end IsOrdered

/-- Every caller is at a stage that fits the rest of its routine, and has done only what fitted. -/
theorem IsTraced.cyclic {sees : List Entry → Station → Prop} {refusals : List Entry → Prop} {again outside : Prop}
    {ends : CycleStage → Prop} {routines : List (Routine α)} {traffic : Traffic α σ}
    (traced : traffic.IsTraced sees refusals routines) {index : Nat} {caller : Caller α}
    (here : traffic.callers[index]? = some caller)
    (cyclic : ∀ routine, routines[index]? = some routine →
      routine.IsCyclic again outside ends .before) :
    ∃ rest, caller.At rest ∧
      rest.IsCyclic again outside ends (Journal.cycleStage index traffic.journal) ∧
      Journal.IsCyclic again outside index traffic.journal := by
  obtain ⟨routine, rest, found, traces, stands⟩ := traced index caller here
  exact ⟨rest, stands, traces.isCyclic (cyclic routine found) trivial⟩

/-- In every run of callers that claim and release the turn in pairs, cycles exclude one another, and
everything that a caller does fits its stage. -/
theorem Reaches.ordered {first : Bench σ} (fresh : first.IsFresh) (free : first.cycleLine = [])
    {routines : List (Routine α)}
    (cyclic : ∀ routine ∈ routines, routine.IsCyclic True True (· ≠ .inside) .before)
    {last : Traffic α σ} (reached : (Traffic.start first routines).Reaches last) :
    last.IsOrdered ∧ ∀ number, Journal.IsCyclic True True number last.journal := by
  have known := reached.invariant
    (fun traffic => traffic.IsOrdered ∧ traffic.IsTraced (fun _ _ => True) (fun _ => True) routines ∧
      ∀ number, Journal.IsCyclic True True number traffic.journal) ?_ ?_
  · exact ⟨known.1, known.2.2⟩
  · refine ⟨.of_fresh fresh free routines, .of_fresh fresh routines, fun number => ?_⟩
    have empty : (Traffic.start first routines).journal = [] := fresh.journal
    rw [empty]
    trivial
  · rintro before after beat ⟨ordered, traced, fits⟩
    have tracedLater := traced.beat beat trivial fun _ => trivial
    have cyclicAt (index : Nat) (routine : Routine α) (found : routines[index]? = some routine) :=
      cyclic routine (List.mem_of_getElem? found)
    refine ⟨ordered.beat beat ?_, tracedLater, fun number => ?_⟩
    · intro index caller here
      obtain ⟨rest, stands, rests, _⟩ := traced.cyclic here (cyclicAt index)
      exact ⟨rest, stands, rests⟩
    · cases beat with
      | @advance index caller next bench here advance =>
          by_cases own : index = number
          · subst own
            have there : (before.callers.set index next)[index]? = some next := by
              simp [(List.getElem?_eq_some_iff.mp here).1]
            obtain ⟨rest, stands, _, fitsLater⟩ := tracedLater.cyclic there (cyclicAt index)
            exact fitsLater
          · apply (fits number).grows
            apply advance.grows.mono
            rintro event (nobody | doer)
            · simp [nobody]
            · simp [doer, own]
      | deliver index possible =>
          apply (fits number).grows
          exact (before.bench.grows_deliver index).mono fun event nobody => by simp [nobody]
      | tick possible => exact ⟨fun own => trivial, fits number⟩
      | elapse possible => exact fits number

end Traffic

end DelayGenerator
