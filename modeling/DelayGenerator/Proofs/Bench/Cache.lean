/-
This file reads the cached snapshot off the journal: it is the one that has been stored last.
-/

import DelayGenerator.Proofs.Bench.Trace

namespace DelayGenerator

/-- The snapshot that an event stores. -/
def Event.stored? : Event → Option Snapshot
  | .did _ (.store snapshot) => some snapshot
  | _ => none

namespace Journal

/-- The snapshot that a journal leaves in the cache. -/
def cached (start : Snapshot) : List Entry → Snapshot
  | [] => start
  | entry :: past => entry.event.stored?.getD (cached start past)

/-- Where nothing is stored, the cache stays as it is. -/
theorem Grows.cached_eq {journal last : List Entry}
    (grows : Grows (fun event => event.stored? = none) journal last) (start : Snapshot) :
    cached start last = cached start journal := by
  obtain ⟨later, rfl, nothing⟩ := grows
  induction later with
  | nil => rfl
  | cons entry later inductionHypothesis =>
      rw [List.cons_append, cached, nothing entry List.mem_cons_self, Option.getD_none]
      exact inductionHypothesis fun found member => nothing found (List.mem_cons_of_mem entry member)

end Journal

theorem Event.stored?_of_nobody {event : Event} (nobody : event.caller? = none) :
    event.stored? = none := by
  cases event <;> first | rfl | contradiction

/-- What somebody has done at the station. -/
def Event.act? : Event → Option Act
  | .did _ act => some act
  | _ => none

theorem Event.act?_of_nobody {event : Event} (nobody : event.caller? = none) : event.act? = none := by
  cases event <;> first | rfl | contradiction

theorem Event.act?_of_not_aside {event : Event} (exchange : event.isAside = false) : event.act? = none := by
  cases event <;> first | rfl | contradiction

theorem Event.stored?_of_not_act {event : Event} (none : event.act? = none) : event.stored? = Option.none := by
  cases event <;> first | rfl | contradiction

/-- An advance is an act at the station, or it leaves the cache and the connection as they are. -/
theorem Advance.act_cases {α σ : Type} {number : Nat} {bench after : Bench σ} {caller next : Caller α}
    (advance : Advance number bench caller after next) :
    (∃ action, after = bench.onStation (Station.perform number action)) ∨
      after.station.cache = bench.station.cache ∧ after.station.connection = bench.station.connection ∧
        Journal.Grows (fun event => event.act? = none) bench.journal after.journal := by
  cases advance.kind with
  | act action follow => exact Or.inl ⟨action, rfl⟩
  | enlist follow => exact Or.inr ⟨rfl, rfl, .refl _ _⟩
  | claim first => exact Or.inr ⟨rfl, rfl, .one (by rfl) _⟩
  | release follow => exact Or.inr ⟨rfl, rfl, .one (by rfl) _⟩
  | exchange exchanges same =>
      exact Or.inr ⟨exchanges.cache, exchanges.connection,
        exchanges.grows.mono fun _ own => Event.act?_of_not_aside own.2⟩

/-- What a caller does to the cache is in the journal. -/
theorem Advance.cached {α σ : Type} {number : Nat} {bench after : Bench σ} {caller next : Caller α}
    (advance : Advance number bench caller after next) {start : Snapshot}
    (cached : bench.station.cache = Journal.cached start bench.journal) :
    after.station.cache = Journal.cached start after.journal := by
  rcases advance.act_cases with ⟨action, rfl⟩ | ⟨same, _, silent⟩
  · obtain ⟨middle, nobody, recorded⟩ := bench.journal_perform number action
    have earlier := cached.trans ((nobody.mono fun _ => Event.stored?_of_nobody).cached_eq start).symm
    rw [recorded]
    cases action <;> first | rfl | exact earlier
  · exact same.trans (cached.trans ((silent.mono fun _ => Event.stored?_of_not_act).cached_eq start).symm)

namespace Traffic

variable {α σ : Type}

theorem cached_of_beats {first : Bench σ} (fresh : first.IsFresh) {routines : List (Routine α)}
    {last : Traffic α σ} (beats : Relation.ReflTransGen Beat (Traffic.start first routines) last) :
    last.bench.station.cache = Journal.cached first.station.cache last.journal := by
  refine invariant_of_beats beats
    (fun traffic => traffic.bench.station.cache = Journal.cached first.station.cache traffic.journal) ?_ ?_
  · have empty : (Traffic.start first routines).journal = [] := fresh.journal
    rw [empty]
    rfl
  · rintro before after beat cached
    cases beat with
    | advance here advance => exact advance.cached cached
    | deliver index possible =>
        have nothing := (before.bench.grows_deliver index).mono fun _ => Event.stored?_of_nobody
        have same : (before.bench.deliver index).station.cache = before.bench.station.cache := by
          unfold Bench.deliver
          split <;> rfl
        exact same.trans (cached.trans (nothing.cached_eq _).symm)
    | tick possible => exact cached
    | elapse possible => exact cached

/-- After every run, the snapshot is cached that has been stored last. -/
theorem Reaches.cached {first : Bench σ} (fresh : first.IsFresh) {routines : List (Routine α)}
    {last : Traffic α σ} (reached : (Traffic.start first routines).Reaches last) :
    last.bench.station.cache = Journal.cached first.station.cache last.journal :=
  cached_of_beats fresh reached.beats

/-- At every point of a run, the snapshot is cached that has been stored last. -/
theorem Meets.cached {first : Bench σ} (fresh : first.IsFresh) {routines : List (Routine α)}
    {last : Traffic α σ} {station : Station} (meets : (Traffic.start first routines).Meets last station) :
    station.cache = Journal.cached first.station.cache station.journal := by
  obtain ⟨middle, early, late, rfl⟩ := meets
  exact cached_of_beats fresh early

end Traffic

end DelayGenerator
