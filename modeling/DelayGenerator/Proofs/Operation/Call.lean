/-
This file says what may be called for at the same time: every call claims and releases the turn for cycles in
pairs, and only a call that asks for all settings stores a snapshot.
-/

import DelayGenerator.Operation.Connect
import DelayGenerator.Proofs.Operation.Acknowledge
import DelayGenerator.Proofs.Operation.Refresh

namespace DelayGenerator

/-- What is called for, or what happens to the line meanwhile. Nothing but a cycle that asks for all
settings stores a snapshot. -/
inductive Call where
  | connect (port : String) (baudRate : Nat)
  | fetch
  | commit (attempts : Nat) (protocol : Protocol)
  | reset (attempts : Nat)
  | disconnect
  | shutdown (grace : Nat)
  | send (command : String)
  | disturb (act : Act) (harmless : ∀ snapshot, act ≠ .store snapshot)

namespace Call

/-- What a call gives. -/
inductive Answer where
  | identity (found : Except Fault Identity)
  | snapshot (snapshot : Snapshot)
  | report (report : CommitReport)
  | isRunning (running : Bool)
  | reply (outcome : Except Fault String)
  | nothing

def routine : Call → Routine Answer
  | connect port baudRate => (Operation.connect port baudRate).andThen fun found => .done (.identity found)
  | fetch => Operation.fetch.andThen fun snapshot => .done (.snapshot snapshot)
  | commit attempts protocol =>
    (Operation.commit attempts protocol).andThen fun report => .done (.report report)
  | reset attempts => (Operation.reset attempts).andThen fun running => .done (.isRunning running)
  | disconnect => Operation.disconnect.andThen fun _ => .done .nothing
  | shutdown grace => (Operation.shutdown grace).andThen fun _ => .done .nothing
  | send command => (Routine.send command).andThen fun outcome => .done (.reply outcome)
  | disturb act _ => (Routine.perform act).andThen fun _ => .done .nothing

/-- Calls begin at any time. -/
def later (call : Nat × Call) : Routine Answer := .pause call.1 call.2.routine

/-- Whether a call exchanges its commands in a cycle. -/
def runsCycle : Call → Bool
  | connect _ _ => true
  | fetch => true
  | commit _ _ => true
  | reset _ => true
  | _ => false

/-- Whether a call asks for all settings in its cycle. -/
def refreshes : Call → Bool
  | connect _ _ => true
  | fetch => true
  | _ => false

/-- What a call that asks for all settings gives when it has cached a snapshot. -/
def answer? (snapshot : Snapshot) : Call → Option Answer
  | connect _ _ => some (.identity (.ok snapshot.identity))
  | fetch => some (.snapshot snapshot)
  | _ => none

end Call

namespace Operation

section

variable {again outside : Prop} {ends : CycleStage → Prop} {stage : CycleStage}

/-- Sending a command claims and releases nothing. -/
theorem isCyclic_attempt (may : stage = .inside ∨ outside) (closes : ends stage) (command expected : String)
    (attempts : Nat) : (attempt command expected attempts).IsCyclic again outside ends stage := by
  induction attempts with
  | zero => exact closes
  | succ attempts inductionHypothesis =>
      refine ⟨may, fun outcome => ?_⟩
      dsimp only
      split
      · split
        · exact closes
        · exact inductionHypothesis
      · exact closes
      · exact inductionHypothesis

theorem isCyclic_sendExpect (may : stage = .inside ∨ outside) (closes : ends stage) (command expected : String)
    (attempts : Nat) : (sendExpect command expected attempts).IsCyclic again outside ends stage := by
  intro station
  dsimp only
  split
  · exact isCyclic_attempt may closes _ _ _
  · exact closes

end

/-- Sending a directive stays in the cycle. -/
theorem isCyclic_acknowledge (attempts : Nat) (directive : Directive) :
    (acknowledge attempts directive).IsCyclic False False (· = .inside) .inside := by
  refine isCyclic_sendExpect (Or.inl rfl) ?_ _ _ _
  rfl

theorem isCyclic_tryAll (attempts : Nat) (directives : List Directive) :
    (tryAll attempts directives).IsCyclic False False (· = .inside) .inside := by
  induction directives with
  | nil => exact rfl
  | cons directive others inductionHypothesis =>
      refine (isCyclic_acknowledge attempts directive).andThen ?_
      rintro accepted stage rfl
      refine inductionHypothesis.andThen ?_
      rintro failed stage rfl
      exact rfl

theorem isCyclic_requireAll (attempts : Nat) (directives : List Directive) :
    (requireAll attempts directives).IsCyclic False False (· = .inside) .inside := by
  induction directives with
  | nil => exact rfl
  | cons directive others inductionHypothesis =>
      refine (isCyclic_acknowledge attempts directive).andThen ?_
      rintro accepted stage rfl
      cases accepted with
      | true => exact inductionHypothesis
      | false => exact rfl

theorem isCyclic_sendProtocol (attempts : Nat) (protocol : Protocol) :
    (sendProtocol attempts protocol).IsCyclic False False (· = .inside) .inside := by
  refine (isCyclic_tryAll attempts _).andThen ?_
  rintro failed stage rfl
  exact rfl

theorem isCyclic_restart (attempts : Nat) :
    (restart attempts).IsCyclic False False (· = .inside) .inside := by
  refine (isCyclic_acknowledge attempts _).andThen ?_
  rintro accepted stage rfl
  cases accepted with
  | false => exact rfl
  | true =>
      refine (isCyclic_tryAll attempts _).andThen ?_
      rintro failed stage rfl
      refine (isCyclic_requireAll attempts _).andThen ?_
      rintro running stage rfl
      cases running with
      | false => exact rfl
      | true =>
          refine (isCyclic_tryAll attempts _).andThen ?_
          rintro failed stage rfl
          exact rfl

theorem isCyclic_askAll (queries : List Query) (snapshot : Snapshot) :
    (askAll queries snapshot).IsCyclic False False (· = .inside) .inside := by
  induction queries generalizing snapshot with
  | nil => exact rfl
  | cons query others inductionHypothesis =>
      exact ⟨Or.inl rfl, fun outcome => inductionHypothesis _⟩

theorem isCyclic_refresh : refresh.IsCyclic False False (· = .inside) .inside := by
  intro station
  refine (isCyclic_askAll _ _).andThen ?_
  rintro snapshot stage rfl
  exact ⟨fun _ _ => rfl, rfl⟩

/-- Connecting is one cycle, in which the port opens before all settings are asked for. -/
theorem connect_andThen {α : Type} (port : String) (baudRate : Nat)
    (follow : Except Fault Identity → Routine α) :
    (connect port baudRate).andThen follow =
      .claim (.act .resetLink (.look fun station =>
        match station.port.openFault? port baudRate with
        | some fault => .act .disconnected (.release (follow (.error fault)))
        | none =>
          .act (.openPort port baudRate) (.act (.connected port baudRate)
            (refresh.andThen fun snapshot => .release (follow (.ok snapshot.identity)))))) := by
  refine congrArg (fun next => Routine.claim (.act .resetLink (.look next))) (funext fun station => ?_)
  dsimp only
  cases station.port.openFault? port baudRate with
  | some fault => rfl
  | none =>
      refine congrArg (fun next => Routine.act (.openPort port baudRate)
        (.act (.connected port baudRate) next)) ?_
      exact (congrArg (fun routine : Routine _ => routine.andThen follow)
        (Routine.andThen_assoc _ _ _)).trans (Routine.andThen_assoc _ _ _)

theorem isCyclic_connect (port : String) (baudRate : Nat) :
    (connect port baudRate).IsCyclic False False (· = .after) .before := by
  rw [← Routine.andThen_done (connect port baudRate), connect_andThen]
  refine ⟨Or.inl rfl, by simp, fun station => ?_⟩
  dsimp only
  split
  · exact ⟨by simp, rfl, rfl⟩
  · refine ⟨by simp, by simp, isCyclic_refresh.andThen ?_⟩
    rintro snapshot stage rfl
    exact ⟨rfl, rfl⟩

/-- Unless the station is closed, a cycle goes on with its value once it has been released. -/
theorem guarded_andThen {α β : Type} (routine : Routine α) (otherwise : α) (follow : α → Routine β) :
    ((Routine.find Station.isOpen).andThen fun isOpen =>
        if isOpen then Routine.cycle routine else .done otherwise).andThen follow =
      .look fun station =>
        if station.isOpen then .claim (routine.andThen fun value => .release (follow value))
        else follow otherwise := by
  refine congrArg Routine.look (funext fun station => ?_)
  change (if station.isOpen then Routine.cycle routine else .done otherwise).andThen follow = _
  split
  · exact congrArg Routine.claim (Routine.andThen_assoc _ _ _)
  · rfl

theorem fetch_andThen {α : Type} (follow : Snapshot → Routine α) :
    fetch.andThen follow = .look fun station =>
      if station.isOpen then .claim (refresh.andThen fun snapshot => .release (follow snapshot))
      else follow .placeholder := guarded_andThen _ _ _

theorem commit_andThen {α : Type} (attempts : Nat) (protocol : Protocol)
    (follow : CommitReport → Routine α) :
    (commit attempts protocol).andThen follow = .look fun station =>
      if station.isOpen then
        .claim ((sendProtocol attempts protocol).andThen fun report => .release (follow report))
      else follow .withoutConnection := guarded_andThen _ _ _

theorem reset_andThen {α : Type} (attempts : Nat) (follow : Bool → Routine α) :
    (reset attempts).andThen follow = .look fun station =>
      if station.isOpen then .claim ((restart attempts).andThen fun value => .release (follow value))
      else follow false := guarded_andThen _ _ _

section

variable {allowed : Act → Prop}

theorem only_requireAll (attempts : Nat) (directives : List Directive) {cycles : Prop} :
    (requireAll attempts directives).Only allowed cycles := by
  induction directives with
  | nil => trivial
  | cons directive others inductionHypothesis =>
      refine (only_acknowledge attempts directive).andThen fun accepted => ?_
      cases accepted with
      | true => exact inductionHypothesis
      | false => trivial

theorem only_restart (attempts : Nat) {cycles : Prop} : (restart attempts).Only allowed cycles := by
  refine (only_acknowledge attempts _).andThen fun accepted => ?_
  cases accepted with
  | false => trivial
  | true =>
      refine (only_tryAll attempts _).andThen fun failed => ?_
      refine (only_requireAll attempts _).andThen fun running => ?_
      cases running with
      | false => trivial
      | true => exact (only_tryAll attempts _).andThen fun failed => trivial

theorem only_askAll (queries : List Query) (snapshot : Snapshot) {cycles : Prop} :
    (askAll queries snapshot).Only allowed cycles := by
  induction queries generalizing snapshot with
  | nil => trivial
  | cons query others inductionHypothesis => exact fun outcome => inductionHypothesis _

theorem only_refresh {cycles : Prop} (stores : ∀ snapshot, allowed (.store snapshot)) :
    refresh.Only allowed cycles :=
  fun _ => (only_askAll _ _).andThen fun snapshot => ⟨stores snapshot, trivial⟩

end

end Operation

namespace Call

/-- Only a call that asks for all settings stores a snapshot. -/
theorem only_routine (call : Call) {allowed : Act → Prop}
    (others : ∀ act, (∀ snapshot, act ≠ .store snapshot) → allowed act)
    (stores : call.refreshes = true → ∀ snapshot, allowed (.store snapshot)) :
    call.routine.Only allowed True := by
  cases call with
  | connect port baudRate =>
      rw [routine, Operation.connect_andThen]
      refine ⟨trivial, others _ (by simp), fun station => ?_⟩
      dsimp only
      split
      · exact ⟨others _ (by simp), trivial⟩
      · exact ⟨others _ (by simp), others _ (by simp),
          (Operation.only_refresh (stores rfl)).andThen fun snapshot => trivial⟩
  | fetch =>
      rw [routine, Operation.fetch_andThen]
      intro station
      dsimp only
      split
      · exact ⟨trivial, (Operation.only_refresh (stores rfl)).andThen fun snapshot => trivial⟩
      · trivial
  | commit attempts protocol =>
      exact (Operation.only_commit attempts protocol).andThen fun report => trivial
  | reset attempts =>
      rw [routine, Operation.reset_andThen]
      intro station
      dsimp only
      split
      · exact ⟨trivial, (Operation.only_restart attempts).andThen fun running => trivial⟩
      · trivial
  | disconnect => exact ⟨others _ (by simp), others _ (by simp), trivial⟩
  | shutdown grace =>
      intro station
      refine ⟨others _ (by simp), ?_⟩
      cases isRunning : station.ticker.due.isSome && grace != 0 with
      | true => exact ⟨others _ (by simp), others _ (by simp), trivial⟩
      | false => exact ⟨others _ (by simp), others _ (by simp), trivial⟩
  | send command => exact fun outcome => trivial
  | disturb act harmless => exact ⟨others act harmless, trivial⟩

/-- A call exchanges its commands in one cycle, if it runs one. -/
theorem isCyclic_routine (call : Call) :
    call.routine.IsCyclic False (call.runsCycle = false) (· ≠ .inside) .before := by
  have early : CycleStage.before ≠ .inside := by decide
  have late : CycleStage.after ≠ .inside := by decide
  -- The calls that run a cycle unless the station is closed.
  have guarded {α : Type} {inner : Routine α}
      (inside : inner.IsCyclic False False (· = .inside) .inside) (answer : α → Answer)
      (otherwise : Answer) :
      (Routine.look fun station => if station.isOpen then
          .claim (inner.andThen fun value => .release (.done (answer value)))
        else .done otherwise).IsCyclic False (call.runsCycle = false) (· ≠ .inside) .before := by
    intro station
    dsimp only
    split
    · refine ⟨Or.inl rfl, Routine.IsCyclic.andThen (inside.mono id False.elim fun _ same => same) ?_⟩
      rintro value stage rfl
      exact ⟨rfl, late⟩
    · exact early
  cases call with
  | connect port baudRate =>
      refine ((Operation.isCyclic_connect port baudRate).mono id False.elim
        fun stage same => same).andThen ?_
      rintro found stage rfl
      exact late
  | fetch =>
      rw [routine, Operation.fetch_andThen]
      exact guarded Operation.isCyclic_refresh _ _
  | commit attempts protocol =>
      rw [routine, Operation.commit_andThen]
      exact guarded (Operation.isCyclic_sendProtocol attempts protocol) _ _
  | reset attempts =>
      rw [routine, Operation.reset_andThen]
      exact guarded (Operation.isCyclic_restart attempts) _ _
  | disconnect => exact ⟨by simp, by simp, early⟩
  | shutdown grace =>
      intro station
      refine ⟨by simp, ?_⟩
      cases isRunning : station.ticker.due.isSome && grace != 0 with
      | true => exact ⟨by simp, by simp, early⟩
      | false => exact ⟨by simp, by simp, early⟩
  | send command => exact ⟨Or.inr rfl, fun outcome => early⟩
  | disturb act harmless => exact ⟨fun snapshot same => absurd same (harmless snapshot), early⟩

end Call

/-- Callers begin with what they are called for. -/
def Traffic.launch {σ : Type} (first : Bench σ) (calls : List (Nat × Call)) : Traffic Call.Answer σ :=
  .start first (calls.map Call.later)

end DelayGenerator
