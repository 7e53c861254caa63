/-
This file shows that no cached snapshot is lost, whatever is called for at the same time: a snapshot that is
stored has been made of the one that was cached before, in a cycle during which nobody else stores anything.
-/

import DelayGenerator.Proofs.Operation.Call

namespace DelayGenerator

/-- A cycle in which a caller has asked for all settings and has stored what has come of the cached
snapshot: the journal before the cycle, what has happened in it until then, and what has come later. -/
structure Refresh (start : Snapshot) (refusals : List Entry → Prop) (number : Nat) (journal : List Entry) where
  before : List Entry
  begun : Nat
  course : List Entry
  ended : Nat
  later : List Entry
  /-- What the caller has been told for each setting. -/
  outcomes : Setting → Except Fault String
  parts : journal = later ++ ⟨ended, .did number
    (.store ((Journal.cached start before).noteEach outcomes Setting.all))⟩ ::
      (course ++ ⟨begun, .claimed number⟩ :: before)
  first : ∀ entry ∈ before, entry.event.caller? ≠ some number
  alone : ∀ entry ∈ course, entry.event.isTurn = false ∧ entry.event.stored? = none
  last : ∀ entry ∈ later, entry.event.caller? = some number → entry.event = .released number
  /-- A query is refused only because of what happens in the cycle. -/
  told : Journal.Records (Journal.Between refusals
      (⟨begun, .claimed number⟩ :: before) (course ++ ⟨begun, .claimed number⟩ :: before))
    (Setting.told outcomes Setting.all) (Journal.outcomes number journal)

theorem Journal.Grows.of_nil {property : Event → Prop} {last : List Entry}
    (grows : Grows property [] last) : ∀ entry ∈ last, property entry.event := by
  obtain ⟨later, rfl, holds⟩ := grows
  rw [List.append_nil]
  exact holds

/-- Nothing by which a caller stores a snapshot. -/
def Event.IsUnstored (number : Nat) (event : Event) : Prop :=
  event.caller? = some number → event.stored? = none

theorem Event.isUnstored_of_foreign {number : Nat} {event : Event}
    (foreign : event.caller? ≠ some number) : event.IsUnstored number :=
  fun own => absurd own foreign

theorem Event.IsCourse.isUnstored {number : Nat} {event : Event} (course : event.IsCourse number) :
    event.IsUnstored number :=
  fun own => (course own).2

namespace Refresh

variable {start : Snapshot} {refusals : List Entry → Prop} {number : Nat} {journal : List Entry}

/-- What a caller has stored. -/
def result (refresh : Refresh start refusals number journal) : Snapshot :=
  (Journal.cached start refresh.before).noteEach refresh.outcomes Setting.all

/-- The journal up to the point where the snapshot is stored. -/
def past (refresh : Refresh start refusals number journal) : List Entry :=
  refresh.course ++ ⟨refresh.begun, .claimed number⟩ :: refresh.before

/-- A snapshot has been made of the one that it takes the place of. -/
theorem cached_past (refresh : Refresh start refusals number journal) :
    Journal.cached start refresh.past = Journal.cached start refresh.before := by
  have grows : Journal.Grows (fun event => event.stored? = none)
      (⟨refresh.begun, .claimed number⟩ :: refresh.before) refresh.past :=
    ⟨refresh.course, rfl, fun entry member => (refresh.alone entry member).2⟩
  exact grows.cached_eq start

/-- A caller stores only once. -/
theorem eq_of_stored (refresh : Refresh start refusals number journal) {later past : List Entry} {time : Nat}
    {snapshot : Snapshot}
    (parts : journal = later ++ ⟨time, .did number (.store snapshot)⟩ :: past) :
    later = refresh.later ∧ time = refresh.ended ∧ snapshot = refresh.result ∧ past = refresh.past := by
  have absentLater (entry : Entry) (member : entry ∈ refresh.later) :
      entry ≠ ⟨time, .did number (.store snapshot)⟩ := by
    rintro rfl
    exact Event.noConfusion (refresh.last _ member rfl)
  have absentPast (entry : Entry) (member : entry ∈ refresh.past) :
      entry ≠ ⟨time, .did number (.store snapshot)⟩ := by
    rintro rfl
    rcases List.mem_append.mp member with inside | outside
    · exact absurd (refresh.alone _ inside).2 (by simp [Event.stored?])
    · rcases List.mem_cons.mp outside with same | early
      · cases same
      · exact refresh.first _ early rfl
  have whole := parts.symm.trans refresh.parts
  rcases List.append_eq_append_iff.mp whole with ⟨between, early, rest⟩ | ⟨between, rfl, rest⟩
  · cases between with
    | nil =>
        obtain ⟨same, rfl⟩ := List.cons.inj rest
        cases same
        rw [List.append_nil] at early
        exact ⟨early.symm, rfl, rfl, rfl⟩
    | cons entry between =>
        obtain ⟨rfl, _⟩ := List.cons.inj rest
        refine absurd rfl (absentLater _ ?_)
        rw [early]
        exact List.mem_append_right _ List.mem_cons_self
  · cases between with
    | nil =>
        obtain ⟨same, rfl⟩ := List.cons.inj rest
        cases same
        exact ⟨List.append_nil _, rfl, rfl, rfl⟩
    | cons entry between =>
        have split : refresh.past = between ++ ⟨time, .did number (.store snapshot)⟩ :: past :=
          (List.cons.inj rest).2
        refine absurd rfl (absentPast _ ?_)
        rw [split]
        exact List.mem_append_right _ List.mem_cons_self

end Refresh

namespace Routine

variable {α : Type} {sees : List Entry → Station → Prop} {refusals : List Entry → Prop} {number : Nat}
  {journal last : List Entry} {rest : Routine α}

/-- A caller that only has to end its cycle does nothing else any more. -/
theorem traces_release {value : α}
    (traces : Traces sees refusals number journal (.release (.done value)) last rest) :
    Journal.Grows (fun event => event.caller? = some number → event = .released number) journal last ∧
      ∀ found, rest = .done found → found = value := by
  have quiet (event : Event) (foreign : event.caller? ≠ some number) :
      event.caller? = some number → event = .released number := fun own => absurd own foreign
  obtain ⟨middle, foreign, ⟨rfl, rfl⟩ | ⟨later, between, goes, after⟩⟩ := traces.split
  · exact ⟨foreign.mono quiet, by simp⟩
  · cases goes with
    | released time =>
        obtain ⟨rfl, others⟩ := after.of_done
        refine ⟨(foreign.mono quiet).trans (.trans (.one (fun _ => rfl) _) (others.mono quiet)), ?_⟩
        rintro found same
        cases same
        rfl

variable {start : Snapshot} {before : List Entry} {begun : Nat}

/-- A caller that has begun a cycle to ask for all settings has stored nothing and is not done yet, or it
has stored a snapshot and gives what it has stored. -/
theorem traces_cycle {answer : Snapshot → α}
    (finds : ∀ journal station, sees journal station → station.cache = Journal.cached start journal)
    (exclusive : Journal.IsExclusive last) (cyclic : ∀ number, Journal.IsCyclic True True number last)
    (idle : Journal.Grows (fun event => event.caller? ≠ some number) [] before)
    (opening : Journal.Grows (Event.IsCourse number) (⟨begun, .claimed number⟩ :: before) journal)
    (silent : Journal.outcomes number journal = Journal.outcomes number before)
    (traces : Traces sees refusals number journal
      (Operation.refresh.andThen fun snapshot => .release (.done (answer snapshot))) last rest) :
    (Journal.Grows (Event.IsUnstored number) [] last ∧ ∀ value, rest ≠ .done value) ∨
      ∃ refresh : Refresh start refusals number last,
        ∀ value, rest = .done value → value = answer refresh.result := by
  rcases traces_refresh finds traces with
    ⟨grows, notDone⟩ | ⟨read, stored, ended, outcomes, items, early, late, told, records, ends⟩
  · refine Or.inl ⟨(idle.mono fun _ => Event.isUnstored_of_foreign).trans ?_, notDone⟩
    exact .trans (.one (fun _ => rfl) _) ((opening.trans grows).mono fun _ => Event.IsCourse.isUnstored)
  obtain ⟨⟨later, rfl, own⟩, returns⟩ := traces_release ends
  obtain ⟨lateCourse, rfl, ownLate⟩ := late
  obtain ⟨earlyCourse, rfl, ownEarly⟩ := opening.trans early
  -- The whole course belongs to the cycle of this caller, so that nobody else begins one or stores anything.
  have quiet : ∀ entry ∈ lateCourse ++ earlyCourse,
      entry.event.isTurn = false ∧ entry.event.stored? = none := by
    have past := exclusive.of_append.2
    have fits (other : Nat) := (cyclic other).of_append.2
    rw [← List.append_assoc] at past
    simp only [← List.append_assoc lateCourse] at fits
    refine Journal.IsExclusive.quiet past fits (Journal.cycleStage_claimed _ _ _) ?_
    intro entry member
    rcases List.mem_append.mp member with late | early
    · exact ownLate entry late
    · exact ownEarly entry early
  have unchanged : Journal.cached start (earlyCourse ++ ⟨begun, .claimed number⟩ :: before) =
      Journal.cached start before := by
    have grows : Journal.Grows (fun event => event.stored? = none)
        (⟨begun, .claimed number⟩ :: before) (earlyCourse ++ ⟨begun, .claimed number⟩ :: before) :=
      ⟨earlyCourse, rfl, fun entry member => (quiet entry (List.mem_append_right _ member)).2⟩
    exact grows.cached_eq start
  rw [unchanged] at returns ⊢
  refine Or.inr ⟨⟨before, begun, lateCourse ++ earlyCourse, ended, later, outcomes, ?_, idle.of_nil, quiet,
    own, ?_⟩, returns⟩
  · rw [List.append_assoc]
  · have nothing : Journal.Grows (fun event => event.outcome? number = none)
        (lateCourse ++ (earlyCourse ++ ⟨begun, .claimed number⟩ :: before)) (later ++ ⟨ended, .did number
          (.store ((Journal.cached start before).noteEach outcomes Setting.all))⟩ ::
            (lateCourse ++ (earlyCourse ++ ⟨begun, .claimed number⟩ :: before))) := by
      refine .trans (.one (by rfl) _) ⟨later, rfl, fun entry member => ?_⟩
      by_cases mine : entry.event.caller? = some number
      · rw [own entry member mine]
        rfl
      · exact Event.outcome?_foreign mine
    rw [Journal.outcomes, nothing.collect_eq]
    change Journal.Records _ _ (Journal.outcomes number _)
    have untold : Journal.outcomes number before = [] := Journal.outcomes_of_foreign idle
    rw [told, silent, untold]
    exact records.mono fun between =>
      between.widen (List.suffix_append _ _) (List.append_assoc _ _ _ ▸ List.suffix_rfl)

/-- A caller that waits for its cycle, and has done nothing before, still waits, or has begun the cycle. -/
theorem traces_claim {next : Routine α}
    (idle : Journal.Grows (fun event => event.caller? ≠ some number) [] journal)
    (traces : Traces sees refusals number journal (.claim next) last rest) :
    (Journal.Grows (fun event => event.caller? ≠ some number) [] last ∧ ∀ value, rest ≠ .done value) ∨
      ∃ before time, Journal.Grows (fun event => event.caller? ≠ some number) [] before ∧
        Traces sees refusals number (⟨time, .claimed number⟩ :: before) next last rest := by
  obtain ⟨before, foreign, ⟨rfl, rfl⟩ | ⟨later, between, goes, after⟩⟩ := traces.split
  · exact Or.inl ⟨idle.trans foreign, by simp⟩
  · cases goes with
    | claimed time => exact Or.inr ⟨before, time, idle.trans foreign, after⟩

/-- A caller that only acts at the station still has to do so, or has gone on. -/
theorem traces_act {action : Act} {next : Routine α} (harmless : ∀ snapshot, action ≠ .store snapshot)
    (traces : Traces sees refusals number journal (.act action next) last rest) :
    (Journal.Grows (Event.IsCourse number) journal last ∧ ∀ value, rest ≠ .done value) ∨
      ∃ middle, Journal.Grows (Event.IsCourse number) journal middle ∧
        Journal.outcomes number middle = Journal.outcomes number journal ∧
        Traces sees refusals number middle next last rest := by
  obtain ⟨middle, foreign, ⟨rfl, rfl⟩ | ⟨later, between, goes, after⟩⟩ := traces.split
  · exact Or.inl ⟨foreign.mono fun _ => Event.isCourse_of_foreign, by simp⟩
  · cases goes with
    | act time =>
        have quiet : Event.IsCourse number (.did number action) := by
          intro own
          refine ⟨rfl, ?_⟩
          cases action <;> first | rfl | exact absurd rfl (harmless _)
        have silent := Journal.outcomes_of_foreign foreign
        refine Or.inr ⟨_, (foreign.mono fun _ => Event.isCourse_of_foreign).trans (.one quiet _), ?_, after⟩
        exact (Journal.collect_cons_none _ rfl).trans silent

end Routine

namespace Call

/-- What a call gives that was to ask for all settings and has not got to it: a placeholder when it has met a
closed station, or the fault with which the port would not open. -/
def IsRefused (met : Station → Prop) : Call → Answer → Prop
  | connect port baudRate, answer =>
    ∃ station fault, met station ∧ station.port.openFault? port baudRate = some fault ∧
      answer = .identity (.error fault)
  | fetch, answer => answer = .snapshot .placeholder ∧ ∃ station, met station ∧ station.isOpen = false
  | _, _ => False

/-- What a call has come to that asks for all settings: it has stored nothing, or gives what it has stored. -/
def HasCome (start : Snapshot) (met : Station → Prop) (refusals : List Entry → Prop) (number : Nat)
    (last : List Entry) (rest : Routine Answer) (call : Call) : Prop :=
  (Journal.Grows (Event.IsUnstored number) [] last ∧ ∀ value, rest = .done value → call.IsRefused met value) ∨
    ∃ refresh : Refresh start refusals number last,
      ∀ value, rest = .done value → call.answer? refresh.result = some value

variable {start : Snapshot} {met : Station → Prop} {refusals : List Entry → Prop} {number delay : Nat}
  {journal last : List Entry} {rest : Routine Answer}

/-- A call that has stored nothing and is not done yet. -/
theorem hasCome_of_grows (call : Call) {property : Event → Prop} (grows : Journal.Grows property [] last)
    (unstored : ∀ event, property event → event.IsUnstored number)
    (notDone : ∀ value, rest ≠ .done value) : call.HasCome start met refusals number last rest :=
  Or.inl ⟨grows.mono unstored, fun value done => absurd done (notDone value)⟩

section

variable (cached : ∀ station, met station → station.cache = Journal.cached start station.journal)
  (exclusive : Journal.IsExclusive last) (cyclic : ∀ number, Journal.IsCyclic True True number last)
  (idle : Journal.Grows (fun event => event.caller? ≠ some number) [] journal)

include cached in
theorem finds_cached (journal : List Entry) (station : Station)
    (seen : station.journal = journal ∧ met station) : station.cache = Journal.cached start journal := by
  obtain ⟨rfl, met⟩ := seen
  exact cached station met

include cached exclusive cyclic idle

theorem hasCome_fetch (traces : fetch.routine.Traces
      (fun journal station => station.journal = journal ∧ met station) refusals number journal last rest) :
    fetch.HasCome start met refusals number last rest := by
  rw [routine, Operation.fetch_andThen] at traces
  obtain ⟨found, foreign, ⟨rfl, rfl⟩ | ⟨looked, next, goes, traces⟩⟩ := traces.split
  · exact hasCome_of_grows _ (idle.trans foreign) (fun _ => Event.isUnstored_of_foreign) (by simp)
  have idle := idle.trans foreign
  cases goes with
  | look station seen =>
      dsimp only at traces
      split at traces
      · rcases Routine.traces_claim idle traces with ⟨idle, notDone⟩ | ⟨before, time, idle, traces⟩
        · exact hasCome_of_grows _ idle (fun _ => Event.isUnstored_of_foreign) notDone
        rcases Routine.traces_cycle (finds_cached cached) exclusive cyclic idle (.refl _ _)
          (Journal.collect_cons_none _ rfl) traces with ⟨grows, notDone⟩ | ⟨refresh, returns⟩
        · exact hasCome_of_grows _ grows (fun _ => id) notDone
        · refine Or.inr ⟨refresh, fun value done => ?_⟩
          rw [returns value done]
          rfl
      next closed =>
        obtain ⟨rfl, foreign⟩ := traces.of_done
        refine Or.inl ⟨(idle.trans foreign).mono fun _ => Event.isUnstored_of_foreign, ?_⟩
        rintro value same
        cases same
        exact ⟨rfl, station, seen.2, Bool.eq_false_iff.mpr closed⟩

theorem hasCome_connect {port : String} {baudRate : Nat} (traces : (connect port baudRate).routine.Traces
      (fun journal station => station.journal = journal ∧ met station) refusals number journal last rest) :
    (connect port baudRate).HasCome start met refusals number last rest := by
  rw [routine, Operation.connect_andThen] at traces
  rcases Routine.traces_claim idle traces with ⟨idle, notDone⟩ | ⟨before, time, idle, traces⟩
  · exact hasCome_of_grows _ idle (fun _ => Event.isUnstored_of_foreign) notDone
  have begun : Journal.Grows (Event.IsUnstored number) [] (⟨time, .claimed number⟩ :: before) :=
    (idle.mono fun _ => Event.isUnstored_of_foreign).trans (.one (fun _ => rfl) _)
  -- While the cycle has stored nothing, the journal has grown by its course.
  have going {last : List Entry} (course : Journal.Grows (Event.IsCourse number)
      (⟨time, .claimed number⟩ :: before) last) : Journal.Grows (Event.IsUnstored number) [] last :=
    begun.trans (course.mono fun _ => Event.IsCourse.isUnstored)
  rcases Routine.traces_act (by simp) traces with ⟨course, notDone⟩ | ⟨reset, course, silent, traces⟩
  · exact hasCome_of_grows _ (going course) (fun _ => id) notDone
  obtain ⟨found, foreign, ⟨rfl, rfl⟩ | ⟨looked, next, goes, traces⟩⟩ := traces.split
  · exact hasCome_of_grows _ ((going course).trans (foreign.mono fun _ => Event.isUnstored_of_foreign))
      (fun _ => id) (by simp)
  have course := course.trans (foreign.mono fun _ => Event.isCourse_of_foreign)
  have silent := (Journal.outcomes_of_foreign foreign).trans silent
  cases goes with
  | look station seen =>
      dsimp only at traces
      split at traces
      next fault fails =>
        rcases Routine.traces_act (by simp) traces with ⟨more, notDone⟩ | ⟨closed, more, _, traces⟩
        · exact hasCome_of_grows _ (going (course.trans more)) (fun _ => id) notDone
        obtain ⟨ends, returns⟩ := Routine.traces_release traces
        refine Or.inl ⟨(going (course.trans more)).trans (ends.mono ?_), fun value done => ?_⟩
        · intro event released own
          rw [released own]
          rfl
        · exact ⟨station, fault, seen.2, fails, returns value done⟩
      next opens =>
        rcases Routine.traces_act (by simp) traces with ⟨more, notDone⟩ | ⟨opened, more, still, traces⟩
        · exact hasCome_of_grows _ (going (course.trans more)) (fun _ => id) notDone
        have course := course.trans more
        rcases Routine.traces_act (by simp) traces with ⟨more, notDone⟩ | ⟨joined, more, quiet, traces⟩
        · exact hasCome_of_grows _ (going (course.trans more)) (fun _ => id) notDone
        rcases Routine.traces_cycle (finds_cached cached) exclusive cyclic idle (course.trans more)
          (quiet.trans (still.trans (silent.trans (Journal.collect_cons_none _ rfl)))) traces with
          ⟨grows, notDone⟩ | ⟨refresh, returns⟩
        · exact hasCome_of_grows _ grows (fun _ => id) notDone
        · refine Or.inr ⟨refresh, fun value done => ?_⟩
          rw [returns value done]
          rfl

end

/-- What has become of a call that asks for all settings, however far it has come. -/
theorem hasCome_later {call : Call} (refreshes : call.refreshes = true)
    (cached : ∀ station, met station → station.cache = Journal.cached start station.journal)
    (exclusive : Journal.IsExclusive last) (cyclic : ∀ number, Journal.IsCyclic True True number last)
    (traces : (later (delay, call)).Traces (fun journal station => station.journal = journal ∧ met station)
      refusals number [] last rest) :
    call.HasCome start met refusals number last rest := by
  obtain ⟨early, foreign, ⟨rfl, rfl⟩ | ⟨paused, begins, goes, traces⟩⟩ := traces.split
  · exact hasCome_of_grows _ foreign (fun _ => Event.isUnstored_of_foreign) (by simp [later])
  cases goes with
  | paused =>
      cases call with
      | fetch => exact hasCome_fetch cached exclusive cyclic foreign traces
      | connect port baudRate => exact hasCome_connect cached exclusive cyclic foreign traces
      | _ => contradiction

end Call

namespace Traffic

variable {σ : Type} {first : Bench σ} {calls : List (Nat × Call)} {last : Traffic Call.Answer σ}

theorem isCyclic_of_mem_later {routine : Routine Call.Answer} (member : routine ∈ calls.map Call.later) :
    routine.IsCyclic True True (· ≠ .inside) .before := by
  obtain ⟨⟨delay, call⟩, _, rfl⟩ := List.mem_map.mp member
  exact (call.isCyclic_routine).mono False.elim (fun _ => trivial) fun _ same => same

/-- Whoever has done something is one of the callers, and has come along what it was called for. -/
theorem Reaches.exists_call (fresh : first.IsFresh)
    (reached : (launch first calls).Reaches last) {entry : Entry}
    (member : entry ∈ last.journal) {number : Nat} (own : entry.event.caller? = some number) :
    ∃ delay call caller, calls[number]? = some (delay, call) ∧ last.callers[number]? = some caller := by
  have inside := reached.caller_lt fresh member own
  have here : last.callers[number]? = some last.callers[number] := List.getElem?_eq_getElem inside
  obtain ⟨routine, rest, found, _⟩ := reached.traced fresh number _ here
  rw [List.getElem?_map, Option.map_eq_some_iff] at found
  obtain ⟨⟨delay, call⟩, called, _⟩ := found
  exact ⟨delay, call, _, called, here⟩

/-- Every caller has come along what it was called for. -/
theorem Reaches.traces_later (fresh : first.IsFresh)
    (reached : (launch first calls).Reaches last) {number delay : Nat} {call : Call}
    {caller : Caller Call.Answer} (called : calls[number]? = some (delay, call))
    (here : last.callers[number]? = some caller) :
    ∃ rest, caller.At rest ∧ (Call.later (delay, call)).Traces (fun journal station =>
      station.journal = journal ∧ (launch first calls).Meets last station)
      ((launch first calls).MeetsClosed last) number [] last.journal rest := by
  obtain ⟨routine, rest, found, traces, stands⟩ := reached.traced fresh number caller here
  rw [List.getElem?_map, called] at found
  cases found
  exact ⟨rest, stands, traces⟩

/-- A call that asks for all settings stores nothing, or gives what it has stored. -/
theorem Reaches.hasCome (fresh : first.IsFresh) (free : first.cycleLine = [])
    (reached : (launch first calls).Reaches last) {number delay : Nat} {call : Call}
    {caller : Caller Call.Answer} (called : calls[number]? = some (delay, call))
    (here : last.callers[number]? = some caller) (refreshes : call.refreshes = true) :
    ∃ rest, caller.At rest ∧ call.HasCome first.station.cache ((launch first calls).Meets last)
      ((launch first calls).MeetsClosed last) number last.journal rest := by
  obtain ⟨rest, stands, traces⟩ := reached.traces_later fresh called here
  obtain ⟨ordered, cyclic⟩ := reached.ordered fresh free fun routine => isCyclic_of_mem_later
  exact ⟨rest, stands, Call.hasCome_later refreshes (fun _ meets => meets.cached fresh)
    ordered.exclusive cyclic traces⟩

/-- A call that asks for no settings stores nothing. -/
theorem Reaches.unstored (fresh : first.IsFresh)
    (reached : (launch first calls).Reaches last) {number delay : Nat} {call : Call}
    {caller : Caller Call.Answer} (called : calls[number]? = some (delay, call))
    (here : last.callers[number]? = some caller) (plain : call.refreshes = false) :
    ∀ entry ∈ last.journal, entry.event.IsUnstored number := by
  obtain ⟨rest, stands, traces⟩ := reached.traces_later fresh called here
  have only : (Call.later (delay, call)).Only (fun act => ∀ snapshot, act ≠ .store snapshot) True :=
    call.only_routine (fun act harmless => harmless) fun stores => by simp [plain] at stores
  refine ((traces.only only).mono ?_).of_nil
  intro event harmless own
  cases event with
  | did caller act =>
      cases own
      have harmless := harmless act rfl
      cases act <;> first | rfl | exact absurd rfl (harmless _)
  | _ => rfl

/-- A call exchanges its commands in one cycle, if it runs one. -/
def runsCycle (calls : List (Nat × Call)) (number : Nat) : Prop :=
  ∃ delay call, calls[number]? = some (delay, call) ∧ call.runsCycle = true

/-- A call that runs a cycle does what fits into one cycle, and writes commands only in it. -/
theorem Reaches.isCyclic_of_runsCycle (fresh : first.IsFresh)
    (reached : (launch first calls).Reaches last) {number : Nat}
    (runs : runsCycle calls number) {entry : Entry} (member : entry ∈ last.journal)
    (own : entry.event.caller? = some number) : Journal.IsCyclic False False number last.journal := by
  obtain ⟨_, _, caller, _, here⟩ := reached.exists_call fresh member own
  obtain ⟨delay, call, called, runs⟩ := runs
  have cyclic (routine : Routine Call.Answer) (found : (calls.map Call.later)[number]? = some routine) :
      routine.IsCyclic False False (· ≠ .inside) .before := by
    rw [List.getElem?_map, called] at found
    cases found
    exact (call.isCyclic_routine).mono id (by simp [runs]) fun _ => id
  obtain ⟨rest, _, _, fits⟩ := (reached.traced fresh).cyclic here cyclic
  exact fits

/-- Cycles do not interrupt one another, and no snapshot that one of them has cached is lost. -/
structure CachesInTurn (first : Bench σ) (calls : List (Nat × Call)) (last : Traffic Call.Answer σ) :
    Prop where
  /-- Between two commands of one cycle, no command of another cycle is written. -/
  apart : ∀ {number time earlier : Nat} {command previous : String} {answer others : List String}
    {later between past : List Entry},
    last.journal = later ++ ⟨time, .wrote number command answer⟩ ::
      (between ++ ⟨earlier, .wrote number previous others⟩ :: past) → runsCycle calls number →
    ∀ entry ∈ between, ∀ other command answer, entry.event = .wrote other command answer →
      runsCycle calls other → other = number
  /-- The snapshot is cached that has been stored last. -/
  cached : last.bench.station.cache = Journal.cached first.station.cache last.journal
  /-- A snapshot is stored as the last thing that a call does in its cycle in which it asks for all settings. It
  has been made of the one that it takes the place of, which was cached before the cycle already, and the call
  gives it. -/
  stored : ∀ {number time : Nat} {snapshot : Snapshot} {later past : List Entry},
    last.journal = later ++ ⟨time, .did number (.store snapshot)⟩ :: past →
    ∃ delay call, calls[number]? = some (delay, call) ∧ call.refreshes = true ∧
      (∀ time value, last.callers[number]? = some (.finished time value) →
        call.answer? snapshot = some value) ∧
      ∃ refresh : Refresh first.station.cache ((launch first calls).MeetsClosed last) number last.journal,
        refresh.later = later ∧ refresh.past = past ∧
        Journal.cached first.station.cache refresh.before = Journal.cached first.station.cache past ∧
        snapshot = (Journal.cached first.station.cache past).noteEach refresh.outcomes Setting.all
  /-- A call that was to ask for all settings gives what it has stored, or it has stored nothing and gives what
  takes the place of that. -/
  finished : ∀ {number delay time : Nat} {call : Call} {value : Call.Answer},
    calls[number]? = some (delay, call) → call.refreshes = true →
    last.callers[number]? = some (.finished time value) →
    (∃ refresh : Refresh first.station.cache ((launch first calls).MeetsClosed last) number last.journal,
        call.answer? refresh.result = some value) ∨
      call.IsRefused ((launch first calls).Meets last) value ∧
        ∀ entry ∈ last.journal, entry.event.IsUnstored number

/-- Whatever is called for at the same time, and whatever happens to the line, cycles do not interrupt one
another, and no snapshot that one of them has cached is lost. -/
theorem Reaches.cachesInTurn (fresh : first.IsFresh) (free : first.cycleLine = [])
    (reached : (launch first calls).Reaches last) : CachesInTurn first calls last := by
  obtain ⟨ordered, _⟩ := reached.ordered fresh free fun routine => isCyclic_of_mem_later
  constructor
  · intro number time earlier command previous answer others later between past parts runs entry member
      other foreign reply wrote runsToo
    obtain ⟨when, event⟩ := entry
    cases wrote
    have early : ⟨earlier, .wrote number previous others⟩ ∈ last.journal := by simp [parts]
    have there : ⟨when, .wrote other foreign reply⟩ ∈ last.journal := by simp [parts, member]
    have cyclic := reached.isCyclic_of_runsCycle fresh runs early rfl
    have cyclicToo := reached.isCyclic_of_runsCycle fresh runsToo there rfl
    have exclusive := ordered.exclusive
    rw [parts] at exclusive cyclic cyclicToo
    exact exclusive.apart cyclic cyclicToo member
  · exact reached.cached fresh
  · intro number time snapshot later past parts
    have member : ⟨time, .did number (.store snapshot)⟩ ∈ last.journal := by simp [parts]
    obtain ⟨delay, call, caller, called, here⟩ := reached.exists_call fresh member rfl
    have stores : ¬ Event.IsUnstored number (.did number (.store snapshot)) := fun unstored => by
      simpa [Event.stored?] using unstored rfl
    cases refreshes : call.refreshes with
    | false => exact absurd (reached.unstored fresh called here refreshes _ member) stores
    | true =>
        obtain ⟨rest, stands, ⟨grows, _⟩ | ⟨refresh, returns⟩⟩ :=
          reached.hasCome fresh free called here refreshes
        · exact absurd (grows.of_nil _ member) stores
        · obtain ⟨rfl, _, rfl, rfl⟩ := refresh.eq_of_stored parts
          refine ⟨delay, call, called, refreshes, fun time value finished => ?_, refresh, rfl, rfl,
            refresh.cached_past.symm, ?_⟩
          · cases here.symm.trans finished
            exact returns value stands
          · rw [refresh.cached_past]
            rfl
  · intro number delay time call value called refreshes finished
    obtain ⟨rest, rfl, ⟨grows, gives⟩ | ⟨refresh, returns⟩⟩ :=
      reached.hasCome fresh free called finished refreshes
    · exact Or.inr ⟨gives value rfl, grows.of_nil⟩
    · exact Or.inl ⟨refresh, returns value rfl⟩

/-- Somebody connects while others fetch and send a command. Both cycles store a snapshot. -/
theorem Reaches.cachesInTurn_three :
    let farEnd : FarEnd Unit := ⟨(), fun _ _ => ((), ["1"])⟩
    let first := Bench.opened { Settings.defaults with tickPeriod := 0 } farEnd ⟨5, some 2⟩
    let calls := [(0, Call.connect "port" 9600), (0, .fetch), (0, .send "*IDN?")]
    let round : List Move := [.elapse, .deliver 0, .deliver 0, .turn 0, .turn 1, .turn 2]
    let last := (launch first calls).play
      ([.turn 0, .turn 1, .turn 2] ++ (List.replicate 80 round).flatten)
    CachesInTurn first calls last ∧
      last.callers.map Caller.isFinished = [true, true, true] ∧
      (last.journal.filterMap fun entry => entry.event.stored?).length = 2 :=
  ⟨Reaches.cachesInTurn (Bench.isFresh_opened _ _ _) rfl (reaches_play _ _), by decide +kernel,
    by decide +kernel⟩

end Traffic

end DelayGenerator
