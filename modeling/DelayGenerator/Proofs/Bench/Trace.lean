/-
This file follows a routine along the journal. A trace tells where in its routine a caller is when the
journal has grown, so that the entries of a caller can be read off its routine, with what others have
recorded in between.
-/

import DelayGenerator.Proofs.Bench.Transcript

namespace DelayGenerator

/-- Who has brought an event about. -/
def Event.caller? : Event → Option Nat
  | .did caller _ => some caller
  | .claimed caller => some caller
  | .released caller => some caller
  | .began caller _ _ => some caller
  | .wrote caller _ _ => some caller
  | .ended caller _ _ => some caller
  | .received _ => none
  | .ticked _ _ => none

/-- What is not the doing of a caller is no outcome of it. -/
theorem Event.outcome?_foreign {event : Event} {number : Nat}
    (foreign : event.caller? ≠ some number) : event.outcome? number = none := by
  cases event with
  | ended caller command outcome => exact outcome?_other (fun same => foreign (by rw [same]; rfl)) _ _
  | _ => rfl

namespace Journal

/-- A journal has grown by entries with a property. -/
def Grows (property : Event → Prop) (journal last : List Entry) : Prop :=
  ∃ later, last = later ++ journal ∧ ∀ entry ∈ later, property entry.event

namespace Grows

variable {property other : Event → Prop} {journal middle last : List Entry}

theorem refl (property : Event → Prop) (journal : List Entry) : Grows property journal journal :=
  ⟨[], rfl, fun _ member => by contradiction⟩

theorem trans (first : Grows property journal middle) (second : Grows property middle last) :
    Grows property journal last := by
  obtain ⟨early, rfl, holdsEarly⟩ := first
  obtain ⟨late, rfl, holdsLate⟩ := second
  refine ⟨late ++ early, (List.append_assoc _ _ _).symm, ?_⟩
  intro entry member
  rcases List.mem_append.mp member with found | found
  · exact holdsLate entry found
  · exact holdsEarly entry found

theorem one {entry : Entry} (holds : property entry.event) (journal : List Entry) :
    Grows property journal (entry :: journal) := by
  refine ⟨[entry], rfl, ?_⟩
  intro found member
  rw [List.mem_singleton.mp member]
  exact holds

theorem head {entry : Entry} (holds : property entry.event)
    (later : Grows property (entry :: journal) last) : Grows property journal last :=
  (one holds journal).trans later

/-- What a reading does not heed adds nothing to it. -/
theorem collect_eq {α : Type} {read : Event → Option α}
    (grows : Grows (fun event => read event = none) journal last) :
    collect read last = collect read journal := by
  obtain ⟨later, rfl, silent⟩ := grows
  induction later with
  | nil => rfl
  | cons entry later inductionHypothesis =>
      rw [List.cons_append, collect_cons_none _ (silent entry List.mem_cons_self)]
      exact inductionHypothesis fun found member => silent found (List.mem_cons_of_mem entry member)

theorem mono (grows : Grows property journal last)
    (implies : ∀ event, property event → other event) : Grows other journal last := by
  obtain ⟨later, rfl, holds⟩ := grows
  exact ⟨later, rfl, fun entry member => implies _ (holds entry member)⟩

theorem suffix (grows : Grows property journal last) : journal <:+ last := by
  obtain ⟨later, rfl, _⟩ := grows
  exact ⟨later, rfl⟩

end Grows

/-- What others do tells a caller nothing. -/
theorem outcomes_of_foreign {number : Nat} {journal last : List Entry}
    (grows : Grows (fun event => event.caller? ≠ some number) journal last) :
    outcomes number last = outcomes number journal :=
  (grows.mono fun _ => Event.outcome?_foreign).collect_eq

end Journal

namespace Routine

variable {α β : Type}

/-- One thing that a caller, known by its number, does in a routine, and the journal afterwards. A look
may find only what can be seen with the journal so far. With the journals of refusals the port is closed, so that a
command is refused and takes no exchange. -/
inductive Goes (sees : List Entry → Station → Prop) (refusals : List Entry → Prop) (number : Nat) :
    List Entry → Routine α → List Entry → Routine α → Prop where
  | look {journal : List Entry} {next : Station → Routine α} (station : Station)
      (seen : sees journal station) :
      Goes sees refusals number journal (.look next) journal (next station)
  | act {journal : List Entry} {action : Act} {next : Routine α} (time : Nat) :
      Goes sees refusals number journal (.act action next)
        (⟨time, .did number action⟩ :: journal) next
  | refused {journal : List Entry} {command : String} {next : Except Fault String → Routine α}
      (possible : refusals journal) :
      Goes sees refusals number journal (.ask command next) journal (next (.error .notConnected))
  | began {journal : List Entry} {command : String} {next : Except Fault String → Routine α}
      (time mark : Nat) :
      Goes sees refusals number journal (.ask command next)
        (⟨time, .began number (Text.stripLineEnd command) mark⟩ :: journal) (.ask command next)
  | wrote {journal : List Entry} {command : String} {next : Except Fault String → Routine α}
      (time : Nat) (answer : List String) :
      Goes sees refusals number journal (.ask command next)
        (⟨time, .wrote number (Text.stripLineEnd command) answer⟩ :: journal) (.ask command next)
  | ended {journal : List Entry} {command : String} {next : Except Fault String → Routine α}
      (time : Nat) (outcome : Except Fault QueuedLine) :
      Goes sees refusals number journal (.ask command next)
        (⟨time, .ended number (Text.stripLineEnd command) outcome⟩ :: journal)
        (next (outcome.map QueuedLine.text))
  | passed {journal : List Entry} {bytes : List UInt8} {bound : Nat}
      {next : Except Fault Unit → Routine α} (time : Nat) (command : String)
      (answer : List String) :
      Goes sees refusals number journal (.transmit bytes bound next)
        (⟨time, .wrote number command answer⟩ :: journal) (next (.ok ()))
  | failed {journal : List Entry} {bytes : List UInt8} {bound : Nat}
      {next : Except Fault Unit → Routine α} (fault : Fault) :
      Goes sees refusals number journal (.transmit bytes bound next) journal (next (.error fault))
  | paused {journal : List Entry} {duration : Nat} {next : Routine α} :
      Goes sees refusals number journal (.pause duration next) journal next
  | rested {journal : List Entry} {next : Routine α} :
      Goes sees refusals number journal (.rest next) journal next
  | claimed {journal : List Entry} {next : Routine α} (time : Nat) :
      Goes sees refusals number journal (.claim next) (⟨time, .claimed number⟩ :: journal) next
  | released {journal : List Entry} {next : Routine α} (time : Nat) :
      Goes sees refusals number journal (.release next) (⟨time, .released number⟩ :: journal) next

/-- While the journal grows, a caller goes on from a routine to the rest of it. -/
inductive Traces (sees : List Entry → Station → Prop) (refusals : List Entry → Prop) (number : Nat) :
    List Entry → Routine α → List Entry → Routine α → Prop where
  | here (journal : List Entry) (routine : Routine α) :
      Traces sees refusals number journal routine journal routine
  /-- Something happens that is not the doing of the caller. -/
  | foreign {journal last : List Entry} {routine rest : Routine α} {entry : Entry}
      (other : entry.event.caller? ≠ some number)
      (later : Traces sees refusals number (entry :: journal) routine last rest) :
      Traces sees refusals number journal routine last rest
  | own {journal middle last : List Entry} {routine between rest : Routine α}
      (goes : Goes sees refusals number journal routine middle between)
      (later : Traces sees refusals number middle between last rest) :
      Traces sees refusals number journal routine last rest

variable {sees : List Entry → Station → Prop} {refusals : List Entry → Prop} {number : Nat}
  {journal middle last : List Entry} {routine between rest : Routine α}

/-- What happens in the first part of a routine does not depend on the second part. -/
theorem Goes.of_andThen {follow : α → Routine β} {rest : Routine β}
    (goes : Goes sees refusals number journal (routine.andThen follow) last rest) :
    (∃ value, routine = .done value) ∨
      ∃ part, rest = part.andThen follow ∧ Goes sees refusals number journal routine last part := by
  cases routine with
  | done value => exact Or.inl ⟨value, rfl⟩
  | look next =>
      cases goes with
      | look station seen => exact Or.inr ⟨_, rfl, .look station seen⟩
  | act action next =>
      cases goes with
      | act time => exact Or.inr ⟨_, rfl, .act time⟩
  | ask command next =>
      cases goes with
      | refused possible => exact Or.inr ⟨_, rfl, .refused possible⟩
      | began time mark => exact Or.inr ⟨.ask command next, rfl, .began time mark⟩
      | wrote time answer => exact Or.inr ⟨.ask command next, rfl, .wrote time answer⟩
      | ended time outcome => exact Or.inr ⟨_, rfl, .ended time outcome⟩
  | transmit bytes bound next =>
      cases goes with
      | passed time command answer => exact Or.inr ⟨_, rfl, .passed time command answer⟩
      | failed fault => exact Or.inr ⟨_, rfl, .failed fault⟩
  | pause duration next =>
      cases goes with
      | paused => exact Or.inr ⟨_, rfl, .paused⟩
  | rest next =>
      cases goes with
      | rested => exact Or.inr ⟨_, rfl, .rested⟩
  | claim next =>
      cases goes with
      | claimed time => exact Or.inr ⟨_, rfl, .claimed time⟩
  | release next =>
      cases goes with
      | released time => exact Or.inr ⟨_, rfl, .released time⟩

namespace Traces

theorem trans (first : Traces sees refusals number journal routine middle between)
    (later : Traces sees refusals number middle between last rest) :
    Traces sees refusals number journal routine last rest := by
  induction first with
  | here journal routine => exact later
  | foreign other first inductionHypothesis => exact .foreign other (inductionHypothesis later)
  | own goes first inductionHypothesis => exact .own goes (inductionHypothesis later)

/-- What others do leaves a caller where it is. -/
theorem of_grows (grows : Journal.Grows (fun event => event.caller? ≠ some number) journal last)
    (routine : Routine α) : Traces sees refusals number journal routine last routine := by
  obtain ⟨later, rfl, foreign⟩ := grows
  induction later with
  | nil => exact .here _ _
  | cons entry later inductionHypothesis =>
      have earlier := inductionHypothesis fun found member =>
        foreign found (List.mem_cons_of_mem entry member)
      exact earlier.trans (.foreign (foreign entry List.mem_cons_self) (.here _ _))

/-- What has been found is found among more, too. -/
theorem mono {more : List Entry → Station → Prop} {further : List Entry → Prop}
    (traces : Traces sees refusals number journal routine last rest)
    (widens : ∀ journal station, sees journal station → more journal station)
    (loosens : ∀ journal, refusals journal → further journal) :
    Traces more further number journal routine last rest := by
  induction traces with
  | here journal routine => exact .here _ _
  | foreign other later inductionHypothesis => exact .foreign other inductionHypothesis
  | own goes later inductionHypothesis =>
      refine .own ?_ inductionHypothesis
      cases goes with
      | look station seen => exact .look station (widens _ _ seen)
      | refused possible => exact .refused (loosens _ possible)
      | act time => exact .act time
      | began time mark => exact .began time mark
      | wrote time answer => exact .wrote time answer
      | ended time outcome => exact .ended time outcome
      | passed time command answer => exact .passed time command answer
      | failed fault => exact .failed fault
      | paused => exact .paused
      | rested => exact .rested
      | claimed time => exact .claimed time
      | released time => exact .released time

/-- Either a caller has done nothing since, or it has done something first. -/
theorem split (traces : Traces sees refusals number journal routine last rest) :
    ∃ middle, Journal.Grows (fun event => event.caller? ≠ some number) journal middle ∧
      ((last = middle ∧ rest = routine) ∨
        ∃ later between, Goes sees refusals number middle routine later between ∧
          Traces sees refusals number later between last rest) := by
  induction traces with
  | here journal routine => exact ⟨journal, .refl _ _, Or.inl ⟨rfl, rfl⟩⟩
  | foreign other later inductionHypothesis =>
      obtain ⟨middle, grows, way⟩ := inductionHypothesis
      exact ⟨middle, grows.head other, way⟩
  | own goes later inductionHypothesis =>
      exact ⟨_, .refl _ _, Or.inr ⟨_, _, goes, later⟩⟩

/-- A caller that is done does nothing more. -/
theorem of_done {value : α} (traces : Traces sees refusals number journal (.done value) last rest) :
    rest = .done value ∧ Journal.Grows (fun event => event.caller? ≠ some number) journal last := by
  obtain ⟨middle, grows, ⟨rfl, rfl⟩ | ⟨later, between, goes, _⟩⟩ := traces.split
  · exact ⟨rfl, grows⟩
  · cases goes

/-- What a routine never does at the station, its caller does not do there. -/
theorem only {allowed : Act → Prop} {cycles : Prop}
    (traces : Traces sees refusals number journal routine last rest) (only : routine.Only allowed cycles) :
    Journal.Grows (fun event => ∀ act, event = .did number act → allowed act) journal last := by
  induction traces with
  | here journal routine => exact .refl _ _
  | foreign other later inductionHypothesis =>
      refine (inductionHypothesis only).head ?_
      rintro act same
      rw [same] at other
      exact absurd rfl other
  | own goes later inductionHypothesis =>
      cases goes with
      | look station seen => exact inductionHypothesis (only station)
      | act time =>
          refine (inductionHypothesis only.2).head ?_
          rintro act same
          cases same
          exact only.1
      | refused possible => exact inductionHypothesis (only _)
      | began time mark => exact (inductionHypothesis only).head (by simp)
      | wrote time answer => exact (inductionHypothesis only).head (by simp)
      | ended time outcome => exact (inductionHypothesis (only _)).head (by simp)
      | passed time command answer => exact False.elim only
      | failed fault => exact False.elim only
      | paused => exact inductionHypothesis only
      | rested => exact inductionHypothesis only
      | claimed time => exact (inductionHypothesis only.2).head (by simp)
      | released time => exact (inductionHypothesis only).head (by simp)

end Traces

/-- The journal has grown without the doing of a caller, apart from what an exchange takes, and the caller
is still at a command, or it has been told an outcome and has gone on. Refused commands are not recorded. -/
def IsAsking (sees : List Entry → Station → Prop) (refusals : List Entry → Prop) (number : Nat) (command : String)
    (next : Except Fault String → Routine α) (journal last : List Entry) (rest : Routine α) : Prop :=
  (rest = .ask command next ∧
    Journal.Grows (fun event => event.caller? = some number → event.isAside = false) journal last ∧
    Journal.outcomes number last = Journal.outcomes number journal) ∨
  ∃ middle outcome,
    Journal.Grows (fun event => event.caller? = some number → event.isAside = false) journal middle ∧
    Traces sees refusals number middle (next outcome) last rest ∧
    ((refusals middle ∧ outcome = .error .notConnected ∧
        Journal.outcomes number middle = Journal.outcomes number journal) ∨
      Journal.outcomes number middle =
        Journal.outcomes number journal ++ [(Text.stripLineEnd command, outcome)])

/-- What tells the caller no outcome may come first. -/
theorem IsAsking.head {command : String} {next : Except Fault String → Routine α} {entry : Entry}
    (asking : IsAsking sees refusals number command next (entry :: journal) last rest)
    (course : entry.event.caller? = some number → entry.event.isAside = false)
    (silent : entry.event.outcome? number = none) :
    IsAsking sees refusals number command next journal last rest := by
  have quiet : Journal.outcomes number (entry :: journal) = Journal.outcomes number journal :=
    Journal.collect_cons_none _ silent
  rcases asking with ⟨same, grows, told⟩ | ⟨middle, outcome, grows, after, told⟩
  · exact Or.inl ⟨same, grows.head course, told.trans quiet⟩
  · rw [quiet] at told
    exact Or.inr ⟨middle, outcome, grows.head course, after, told⟩

namespace Traces

theorem of_ask {command : String} {next : Except Fault String → Routine α}
    (traces : Traces sees refusals number journal (.ask command next) last rest) :
    IsAsking sees refusals number command next journal last rest := by
  generalize same : Routine.ask command next = routine at traces
  induction traces with
  | here journal routine => exact Or.inl ⟨same.symm, .refl _ _, rfl⟩
  | foreign other later inductionHypothesis =>
      exact (inductionHypothesis same).head (fun own => absurd own other) (Event.outcome?_foreign other)
  | own goes later inductionHypothesis =>
      subst same
      cases goes with
      | refused possible =>
          exact Or.inr ⟨_, _, .refl _ _, later, Or.inl ⟨possible, rfl, rfl⟩⟩
      | began time mark => exact (inductionHypothesis rfl).head (fun _ => rfl) rfl
      | wrote time answer => exact (inductionHypothesis rfl).head (fun _ => rfl) rfl
      | ended time outcome =>
          refine Or.inr ⟨_, _, .one (by simp [Event.isAside]) _, later, Or.inr ?_⟩
          exact Journal.collect_cons_some _ (Event.outcome?_own _ _ _)

/-- A caller is still in the first part of its routine, or has come through it to the second part. -/
theorem of_andThen {follow : α → Routine β} {rest : Routine β}
    (traces : Traces sees refusals number journal (routine.andThen follow) last rest) :
    (∃ part, rest = part.andThen follow ∧ Traces sees refusals number journal routine last part) ∨
      ∃ middle value, Traces sees refusals number journal routine middle (.done value) ∧
        Traces sees refusals number middle (follow value) last rest := by
  generalize same : routine.andThen follow = whole at traces
  induction traces generalizing routine with
  | here journal whole => exact Or.inl ⟨routine, same.symm, .here _ _⟩
  | foreign other later inductionHypothesis =>
      rcases inductionHypothesis same with ⟨part, rest, traces⟩ | ⟨middle, value, traces, after⟩
      · exact Or.inl ⟨part, rest, .foreign other traces⟩
      · exact Or.inr ⟨middle, value, .foreign other traces, after⟩
  | own goes later inductionHypothesis =>
      subst same
      rcases goes.of_andThen with ⟨value, rfl⟩ | ⟨part, same, goesPart⟩
      · exact Or.inr ⟨_, value, .here _ _, .own goes later⟩
      · rcases inductionHypothesis same.symm with ⟨part, rest, traces⟩ | ⟨middle, value, traces, after⟩
        · exact Or.inl ⟨part, rest, .own goesPart traces⟩
        · exact Or.inr ⟨middle, value, .own goesPart traces, after⟩

end Traces

end Routine

namespace Bench

variable {σ : Type}

/-- An act is recorded behind the lines that it brings in. -/
theorem journal_perform (bench : Bench σ) (caller : Nat) (act : Act) :
    ∃ middle, Journal.Grows (fun event => event.caller? = none) bench.journal middle ∧
      (bench.onStation (Station.perform caller act)).journal =
        ⟨bench.clock, .did caller act⟩ :: middle := by
  cases act with
  | receive bytes =>
      refine ⟨⟨bench.clock, .received (bench.station.link.completed bytes)⟩ :: bench.journal, ?_, rfl⟩
      exact .one (by rfl) _
  | _ => exact ⟨bench.journal, .refl _ _, rfl⟩

/-- What comes in is nobody's doing. -/
theorem grows_deliver (bench : Bench σ) (index : Nat) :
    Journal.Grows (fun event => event.caller? = none) bench.journal (bench.deliver index).journal := by
  unfold deliver
  split
  · exact .one (by rfl) _
  · exact .one (by rfl) _
  · exact .refl _ _
  · exact .refl _ _

end Bench

/-- The caller has recorded no more than an exchange, and the rest of the station and the line for cycles are as
they were. -/
structure Bench.Exchanges {σ : Type} (number : Nat) (bench after : Bench σ) : Prop where
  cycleLine : after.cycleLine = bench.cycleLine
  cache : after.station.cache = bench.station.cache
  connection : after.station.connection = bench.station.connection
  ticker : after.station.ticker = bench.station.ticker
  grows : Journal.Grows (fun event => event.caller? = some number ∧ event.isAside = false) bench.journal
    after.journal

/-- Whether a caller stands in line to run a cycle. -/
def Caller.isClaiming {α : Type} : Caller α → Bool
  | claiming _ => true
  | _ => false

/-- A caller acts at the station, enters, begins or ends a cycle, or does no more than exchange something. -/
inductive Advance.Kind {α σ : Type} (number : Nat) : Bench σ → Caller α → Bench σ → Caller α → Prop
  | act (bench : Bench σ) (action : Act) (follow : Routine α) :
      Kind number bench (.ready (.act action follow)) (bench.onStation (Station.perform number action))
        (.ready follow)
  | enlist (bench : Bench σ) (follow : Routine α) :
      Kind number bench (.ready (.claim follow)) { bench with cycleLine := bench.cycleLine ++ [number] }
        (.claiming follow)
  | claim {bench : Bench σ} {routine : Routine α} (first : bench.cycleLine.head? = some number) :
      Kind number bench (.claiming routine) (bench.record (.claimed number)) (.ready routine)
  | release (bench : Bench σ) (follow : Routine α) :
      Kind number bench (.ready (.release follow))
        (Bench.record (.released number) { bench with cycleLine := bench.cycleLine.tail }) (.ready follow)
  | exchange {bench after : Bench σ} {caller next : Caller α} (exchanges : bench.Exchanges number after)
      (same : next.isClaiming = caller.isClaiming) : Kind number bench caller after next

namespace Advance

variable {α σ : Type} {number : Nat} {bench after : Bench σ} {caller next : Caller α}

/-- Every advance is of one of these kinds. -/
theorem kind (advance : Advance number bench caller after next) : Kind number bench caller after next := by
  cases advance with
  | act action follow => exact .act bench action follow
  | enlist follow => exact .enlist bench follow
  | claim first => exact .claim first
  | release follow => exact .release bench follow
  | start first course => exact .exchange ⟨rfl, rfl, rfl, rfl, .one ⟨rfl, rfl⟩ _⟩ rfl
  | @failAtOnce command follow fault first course =>
      have started : Journal.Grows (fun event => event.caller? = some number ∧ event.isAside = false)
          bench.journal (bench.started number command).journal := .one ⟨rfl, rfl⟩ _
      cases fault <;> exact .exchange ⟨rfl, rfl, rfl, rfl, started.trans (.one ⟨rfl, rfl⟩ _)⟩ rfl
  | write due => exact .exchange ⟨rfl, rfl, rfl, rfl, .one ⟨rfl, rfl⟩ _⟩ rfl
  | @failLate command follow finish fault due =>
      cases fault <;> exact .exchange ⟨rfl, rfl, rfl, rfl, .one ⟨rfl, rfl⟩ _⟩ rfl
  | takeLine due first => exact .exchange ⟨rfl, rfl, rfl, rfl, .one ⟨rfl, rfl⟩ _⟩ rfl
  | wakeInVain empty woken => exact .exchange ⟨rfl, rfl, rfl, rfl, .one ⟨rfl, rfl⟩ _⟩ rfl
  | timeOut empty asleep due => exact .exchange ⟨rfl, rfl, rfl, rfl, .one ⟨rfl, rfl⟩ _⟩ rfl
  | @endTransmission bytes finish follow result due =>
      cases result with
      | ok done => exact .exchange ⟨rfl, rfl, rfl, rfl, .one ⟨rfl, rfl⟩ _⟩ rfl
      | error fault => exact .exchange ⟨rfl, rfl, rfl, rfl, .refl _ _⟩ rfl
  | _ => exact .exchange ⟨rfl, rfl, rfl, rfl, .refl _ _⟩ rfl

/-- A caller records nothing in the name of others. -/
theorem grows (advance : Advance number bench caller after next) :
    Journal.Grows (fun event => event.caller? = none ∨ event.caller? = some number) bench.journal
      after.journal := by
  cases advance.kind with
  | act action follow =>
      obtain ⟨middle, silent, recorded⟩ := bench.journal_perform number action
      rw [recorded]
      exact (silent.mono fun _ => Or.inl).trans (.one (Or.inr rfl) _)
  | enlist follow => exact .refl _ _
  | claim first => exact .one (Or.inr rfl) _
  | release follow => exact .one (Or.inr rfl) _
  | exchange exchanges same => exact exchanges.grows.mono fun _ own => Or.inr own.1

/-- A caller goes on in its routine along with the journal. -/
theorem traces {sees : List Entry → Station → Prop} {refusals : List Entry → Prop}
    (advance : Advance number bench caller after next) (seen : sees bench.journal bench.station)
    (possible : bench.isOpen = false → refusals bench.journal) {rest : Routine α} (here : caller.At rest) :
    ∃ later, rest.Traces sees refusals number bench.journal after.journal later ∧ next.At later := by
  cases advance with
  | finish value =>
      cases here
      exact ⟨_, .here _ _, rfl⟩
  | look follow =>
      cases here
      exact ⟨_, .own (.look bench.station seen) (.here _ _), rfl⟩
  | act action follow =>
      cases here
      obtain ⟨middle, silent, recorded⟩ := bench.journal_perform number action
      rw [recorded]
      have foreign : Journal.Grows (fun event => event.caller? ≠ some number) bench.journal middle :=
        silent.mono fun event none => by simp [none]
      exact ⟨_, (Routine.Traces.of_grows foreign _).trans (.own (.act _) (.here _ _)), rfl⟩
  | refuse command follow closed =>
      cases here
      exact ⟨_, .own (.refused (possible closed)) (.here _ _), rfl⟩
  | join command follow isOpen =>
      cases here
      exact ⟨_, .here _ _, command, rfl, rfl⟩
  | start first course =>
      obtain ⟨whole, rfl, rfl⟩ := here
      exact ⟨_, .own (.began _ _) (.here _ _), whole, rfl, rfl⟩
  | @failAtOnce command follow fault first course =>
      obtain ⟨whole, rfl, rfl⟩ := here
      refine ⟨follow (.error (Bench.writeFault (Text.stripLineEnd whole) fault)), ?_, rfl⟩
      cases fault <;> exact .own (.began _ _) (.own (.ended _ (.error _)) (.here _ _))
  | write due =>
      obtain ⟨whole, rfl, rfl⟩ := here
      exact ⟨_, .own (.wrote _ _) (.here _ _), whole, rfl, rfl⟩
  | @failLate command follow finish fault due =>
      obtain ⟨whole, rfl, rfl⟩ := here
      refine ⟨follow (.error (Bench.writeFault (Text.stripLineEnd whole) fault)), ?_, rfl⟩
      cases fault <;> exact .own (.ended _ (.error _)) (.here _ _)
  | @takeLine command follow deadline line others due first =>
      obtain ⟨whole, rfl, rfl⟩ := here
      exact ⟨_, .own (.ended _ (.ok line)) (.here _ _), rfl⟩
  | wakeInVain empty woken =>
      obtain ⟨whole, rfl, rfl⟩ := here
      exact ⟨_, .own (.ended _ (.error _)) (.here _ _), rfl⟩
  | timeOut empty asleep due =>
      obtain ⟨whole, rfl, rfl⟩ := here
      exact ⟨_, .own (.ended _ (.error _)) (.here _ _), rfl⟩
  | failTransmission course =>
      cases here
      exact ⟨_, .own (.failed _) (.here _ _), rfl⟩
  | startTransmission course =>
      cases here
      exact ⟨_, .here _ _, _, rfl⟩
  | @endTransmission bytes finish follow result due =>
      obtain ⟨bound, rfl⟩ := here
      cases result with
      | ok done => exact ⟨_, .own (.passed _ _ _) (.here _ _), rfl⟩
      | error fault => exact ⟨_, .own (.failed fault) (.here _ _), rfl⟩
  | skip follow =>
      cases here
      exact ⟨_, .own .paused (.here _ _), rfl⟩
  | sleep follow positive =>
      cases here
      exact ⟨_, .own .paused (.here _ _), rfl⟩
  | wake due => exact ⟨rest, .here _ _, here⟩
  | rest follow =>
      cases here
      exact ⟨_, .own .rested (.here _ _), rfl⟩
  | enlist follow =>
      cases here
      exact ⟨_, .here _ _, rfl⟩
  | claim first =>
      cases here
      exact ⟨_, .own (.claimed _) (.here _ _), rfl⟩
  | release follow =>
      cases here
      exact ⟨_, .own (.released _) (.here _ _), rfl⟩

end Advance

namespace Traffic

variable {α σ : Type}

/-- Every caller has gone along its routine as far as the journal has grown. -/
def IsTraced (sees : List Entry → Station → Prop) (refusals : List Entry → Prop) (routines : List (Routine α))
    (traffic : Traffic α σ) : Prop :=
  ∀ (index : Nat) (caller : Caller α), traffic.callers[index]? = some caller →
    ∃ routine rest, routines[index]? = some routine ∧
      routine.Traces sees refusals index [] traffic.journal rest ∧ caller.At rest

namespace IsTraced

variable {sees : List Entry → Station → Prop} {refusals : List Entry → Prop} {routines : List (Routine α)}
  {before after : Traffic α σ}

theorem of_fresh {first : Bench σ} (fresh : first.IsFresh) (routines : List (Routine α)) :
    (start first routines).IsTraced sees refusals routines := by
  intro index caller here
  obtain ⟨routine, found, rfl⟩ := ready_of_start here
  have empty : (start first routines).journal = [] := fresh.journal
  rw [empty]
  exact ⟨routine, routine, found, .here _ _, rfl⟩

/-- What is nobody's doing leaves the callers where they are. -/
theorem onBench (traced : before.IsTraced sees refusals routines) {bench : Bench σ}
    (grows : Journal.Grows (fun event => event.caller? = none) before.journal bench.journal) :
    IsTraced sees refusals routines ⟨bench, before.callers⟩ := by
  intro index caller here
  obtain ⟨routine, rest, found, traces, stands⟩ := traced index caller here
  have foreign : Journal.Grows (fun event => event.caller? ≠ some index) before.journal
      bench.journal := grows.mono fun event none => by simp [none]
  exact ⟨routine, rest, found, traces.trans (.of_grows foreign _), stands⟩

theorem beat (traced : before.IsTraced sees refusals routines) (beat : before.Beat after)
    (seen : sees before.journal before.bench.station)
    (possible : before.bench.isOpen = false → refusals before.journal) :
    after.IsTraced sees refusals routines := by
  cases beat with
  | @advance index caller next bench here advance =>
      refine forall_set ?_ fun other standing differ there => ?_
      · obtain ⟨routine, rest, found, traces, stands⟩ := traced index caller here
        obtain ⟨later, goesOn, standsLater⟩ := advance.traces seen possible stands
        exact ⟨routine, later, found, traces.trans goesOn, standsLater⟩
      · obtain ⟨routine, rest, found, traces, stands⟩ := traced other standing there
        have foreign : Journal.Grows (fun event => event.caller? ≠ some other) before.journal
            bench.journal := by
          apply advance.grows.mono
          rintro event (none | own)
          · simp [none]
          · simp [own, Ne.symm differ]
        exact ⟨routine, rest, found, traces.trans (.of_grows foreign _), stands⟩
  | deliver index possible => exact traced.onBench (Bench.grows_deliver _ _)
  | tick possible => exact traced.onBench (.one (by rfl) _)
  | elapse possible => exact traced.onBench (.refl _ _)

end IsTraced

/-- A station as it has been at some point of a run. -/
def Meets (first last : Traffic α σ) (station : Station) : Prop :=
  ∃ middle : Traffic α σ, Relation.ReflTransGen Beat first middle ∧
    Relation.ReflTransGen Beat middle last ∧ middle.bench.station = station

/-- Whether the port has been closed at a point of a run, when the journal was this one. -/
def MeetsClosed (first last : Traffic α σ) (journal : List Entry) : Prop :=
  ∃ station, first.Meets last station ∧ station.journal = journal ∧ station.port.isOpen = false

theorem Meets.beat {first before after : Traffic α σ} {station : Station}
    (meets : first.Meets before station) (beat : before.Beat after) : first.Meets after station := by
  obtain ⟨middle, early, late, same⟩ := meets
  exact ⟨middle, early, late.tail beat, same⟩

/-- After every run, callers have found the station as it has been at some point of the run, and commands
have been refused only where the port was closed. -/
theorem Reaches.traced {first : Bench σ} (fresh : first.IsFresh) {routines : List (Routine α)}
    {last : Traffic α σ} (reached : (Traffic.start first routines).Reaches last) :
    last.IsTraced
      (fun journal station => station.journal = journal ∧ (Traffic.start first routines).Meets last station)
      ((Traffic.start first routines).MeetsClosed last) routines := by
  have known := reached.invariant (fun traffic =>
    Relation.ReflTransGen Beat (Traffic.start first routines) traffic ∧
      traffic.IsTraced (fun journal station => station.journal = journal ∧
        (Traffic.start first routines).Meets traffic station)
        ((Traffic.start first routines).MeetsClosed traffic) routines) ⟨.refl, .of_fresh fresh routines⟩ ?_
  · exact known.2
  · rintro before after beat ⟨beats, traced⟩
    have here : (Traffic.start first routines).Meets after before.bench.station :=
      ⟨before, beats, .single beat, rfl⟩
    have widened : before.IsTraced (fun journal station => station.journal = journal ∧
        (Traffic.start first routines).Meets after station)
        ((Traffic.start first routines).MeetsClosed after) routines := by
      intro index caller standing
      obtain ⟨routine, rest, found, traces, stands⟩ := traced index caller standing
      refine ⟨routine, rest, found, traces.mono ?_ ?_, stands⟩
      · rintro journal station ⟨same, meets⟩
        exact ⟨same, meets.beat beat⟩
      · rintro journal ⟨station, meets, same, closed⟩
        exact ⟨station, meets.beat beat, same, closed⟩
    exact ⟨beats.tail beat, widened.beat beat ⟨rfl, here⟩ fun closed => ⟨_, here, rfl, closed⟩⟩

/-- Whatever somebody has done, one of the callers has done. -/
theorem Reaches.caller_lt {first : Bench σ} (fresh : first.IsFresh) {routines : List (Routine α)}
    {last : Traffic α σ} (reached : (Traffic.start first routines).Reaches last) {entry : Entry}
    (member : entry ∈ last.journal) {number : Nat} (own : entry.event.caller? = some number) :
    number < last.callers.length := by
  have known := reached.invariant (fun traffic => Journal.Grows
    (fun event => ∀ number, event.caller? = some number → number < traffic.callers.length) []
      traffic.journal) ?_ ?_
  · obtain ⟨entries, same, holds⟩ := known
    rw [same, List.append_nil] at member
    exact holds entry member number own
  · have empty : (Traffic.start first routines).journal = [] := fresh.journal
    rw [empty]
    exact .refl _ _
  · rintro before after beat known
    -- What is nobody's doing keeps to the callers.
    have nobody {journal : List Entry}
        (grows : Journal.Grows (fun event => event.caller? = none) before.journal journal) :
        Journal.Grows (fun event => ∀ number, event.caller? = some number →
          number < before.callers.length) [] journal := by
      refine known.trans (grows.mono fun event none number own => ?_)
      rw [none] at own
      contradiction
    cases beat with
    | @advance index caller next bench here advance =>
        have inside := (List.getElem?_eq_some_iff.mp here).1
        rw [List.length_set]
        refine known.trans (advance.grows.mono ?_)
        rintro event (none | own) number mine
        · rw [none] at mine
          contradiction
        · rw [own] at mine
          rwa [← Option.some.inj mine]
    | deliver index possible => exact nobody (Bench.grows_deliver _ _)
    | tick possible => exact nobody (.one (by rfl) _)
    | elapse possible => exact nobody (.refl _ _)

end Traffic

end DelayGenerator
