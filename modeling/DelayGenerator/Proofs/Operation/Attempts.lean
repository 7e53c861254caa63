/-
This file says how often a command is sent: until the reply is the expected one, but not beyond its attempts
and not beyond the loss of the connection.
-/

import DelayGenerator.Proofs.Bench.Ending
import DelayGenerator.Proofs.Bench.Span
import DelayGenerator.Proofs.Operation.Call

namespace DelayGenerator

namespace Operation

/-- An outcome after which the command is sent again as long as there are attempts left. -/
def IsUndecided (expected : String) (outcome : Except Fault String) : Prop :=
  outcome ≠ .ok expected ∧ outcome ≠ .error .notConnected

/-- With these outcomes, one for each sending, the attempts are over, and this is what they have come to. -/
inductive Settles (expected : String) (attempts : Nat) : List (Except Fault String) → Bool → Prop
  | matched {earlier : List (Except Fault String)} (undecided : ∀ outcome ∈ earlier, IsUndecided expected outcome)
      (within : earlier.length < attempts) : Settles expected attempts (earlier ++ [.ok expected]) true
  | lost {earlier : List (Except Fault String)} (undecided : ∀ outcome ∈ earlier, IsUndecided expected outcome)
      (within : earlier.length < attempts) : Settles expected attempts (earlier ++ [.error .notConnected]) false
  | spent {outcomes : List (Except Fault String)} (undecided : ∀ outcome ∈ outcomes, IsUndecided expected outcome)
      (all : outcomes.length = attempts) : Settles expected attempts outcomes false

namespace Settles

variable {expected : String} {attempts : Nat} {outcomes : List (Except Fault String)} {accepted : Bool}

theorem cons (settles : Settles expected attempts outcomes accepted) {outcome : Except Fault String}
    (undecided : IsUndecided expected outcome) :
    Settles expected (attempts + 1) (outcome :: outcomes) accepted := by
  cases settles with
  | matched others within =>
      exact matched (List.forall_mem_cons.mpr ⟨undecided, others⟩) (Nat.succ_lt_succ within)
  | lost others within => exact lost (List.forall_mem_cons.mpr ⟨undecided, others⟩) (Nat.succ_lt_succ within)
  | spent others all =>
      refine spent (List.forall_mem_cons.mpr ⟨undecided, others⟩) ?_
      rw [List.length_cons, all]

/-- The attempts succeed if and only if one of them has the expected reply. -/
theorem mem_iff (settles : Settles expected attempts outcomes accepted) :
    .ok expected ∈ outcomes ↔ accepted = true := by
  cases settles with
  | matched undecided within => simp
  | lost undecided within =>
      simp only [List.mem_append, List.mem_singleton, reduceCtorEq, or_false, Bool.false_eq_true, iff_false]
      exact fun member => (undecided _ member).1 rfl
  | spent undecided all =>
      simp only [Bool.false_eq_true, iff_false]
      exact fun member => (undecided _ member).1 rfl

end Settles

/-- A command has been sent until its attempts were over. Nothing is connected any more once an attempt has been
told so. -/
structure IsTried (command expected : String) (attempts : Nat) (isOpen? : Option Bool) (sendings : List Sending)
    (accepted : Bool) : Prop where
  commands : ∀ sending ∈ sendings, sending.command = command
  settles : Settles expected attempts (sendings.map Sending.outcome) accepted
  closed : .error .notConnected ∈ sendings.map Sending.outcome → isOpen? = some false

namespace IsTried

variable {command expected : String} {attempts : Nat} {isOpen? : Option Bool} {sendings : List Sending}
  {accepted : Bool}

/-- An attempt that decides nothing comes before the others. -/
theorem cons (tried : IsTried command expected attempts isOpen? sendings accepted)
    {outcome : Except Fault String} (undecided : IsUndecided expected outcome) :
    IsTried command expected (attempts + 1) isOpen? (.exchanged command outcome :: sendings) accepted where
  commands := List.forall_mem_cons.mpr ⟨rfl, tried.commands⟩
  settles := tried.settles.cons undecided
  closed member := tried.closed ((List.mem_cons.mp member).resolve_left fun same => undecided.2 same.symm)

/-- What is known of the port holds of the port. -/
theorem after (tried : IsTried command expected attempts isOpen? sendings accepted) {isOpen : Bool}
    (known : ∀ stated ∈ isOpen?, isOpen = stated) :
    IsTried command expected attempts (some isOpen) sendings accepted where
  commands := tried.commands
  settles := tried.settles
  closed member := congrArg some (known false (tried.closed member))

theorem matched (command expected : String) (attempts : Nat) (isOpen? : Option Bool) :
    IsTried command expected (attempts + 1) isOpen? [.exchanged command (.ok expected)] true where
  commands := by simp [Sending.command]
  settles := .matched (fun _ member => absurd member List.not_mem_nil) (Nat.succ_pos attempts)
  closed member := by simp [Sending.outcome] at member

theorem lost {sending : Sending} (expected : String) (attempts : Nat) (own : sending.command = command)
    (told : sending.outcome = .error .notConnected) :
    IsTried command expected (attempts + 1) (some false) [sending] false where
  commands := by simpa using own
  settles := by
    rw [List.map_singleton, told]
    exact .lost (fun _ member => absurd member List.not_mem_nil) (Nat.succ_pos attempts)
  closed _ := rfl

end IsTried

/-- Behind the earlier sendings stand those of a command that has been tried. If the port has been open, the
first one is an exchange. -/
def TriesNext (command expected : String) (attempts : Nat) (isOpen? : Option Bool) (earlier : List Sending)
    (after? : Option Bool) (sendings : List Sending) (accepted : Bool) : Prop :=
  ∃ more, sendings = earlier ++ more ∧ IsTried command expected attempts after? more accepted ∧
    (isOpen? = some true → attempts ≠ 0 → ∃ outcome, more.head? = some (.exchanged command outcome))

/-- Each sending of a command is one attempt. -/
theorem ensures_attempt (command expected : String) (attempts : Nat) (isOpen? : Option Bool)
    (earlier : List Sending) :
    (attempt command expected attempts).Ensures
      (TriesNext (Text.stripLineEnd command) expected attempts isOpen? earlier) isOpen? earlier := by
  induction attempts generalizing isOpen? earlier with
  | zero =>
      refine ⟨[], (List.append_nil _).symm, ⟨fun _ member => absurd member List.not_mem_nil, ?_, ?_⟩, ?_⟩
      · exact .spent (fun _ member => absurd member List.not_mem_nil) rfl
      · exact fun member => absurd member List.not_mem_nil
      · exact fun _ none => absurd rfl none
  | succ attempts inductionHypothesis =>
      -- The command is sent again, and what comes of it stands behind the first outcome.
      have again (outcome : Except Fault String) (undecided : IsUndecided expected outcome) :
          (attempt command expected attempts).Ensures
            (TriesNext (Text.stripLineEnd command) expected (attempts + 1) isOpen? earlier) (portAfter? outcome)
            (earlier ++ [.exchanged (Text.stripLineEnd command) outcome]) := by
        refine (inductionHypothesis (portAfter? outcome) _).mono ?_
        rintro after? sendings accepted ⟨more, rfl, tried, _⟩
        exact ⟨_ :: more, List.append_assoc _ _ _, tried.cons undecided, fun _ _ => ⟨outcome, rfl⟩⟩
      refine ⟨fun possible => ?_, fun possible outcome => ?_⟩
      · exact ⟨[_], rfl, .lost expected attempts rfl rfl, fun isOpen => absurd isOpen possible⟩
      · cases outcome with
        | ok reply =>
            dsimp only
            split
            next same =>
              rw [beq_iff_eq.mp same]
              exact ⟨[_], rfl, .matched _ _ _ _, fun _ _ => ⟨_, rfl⟩⟩
            next differ => exact again (.ok reply) ⟨by simpa using differ, by simp⟩
        | error fault =>
            cases fault with
            | notConnected => exact ⟨[_], rfl, .lost expected attempts rfl rfl, fun _ _ => ⟨_, rfl⟩⟩
            | _ => exact again _ ⟨by simp, by simp⟩

/-- A command finds the port open and is tried, or it finds the port closed and is not sent. -/
inductive Meets (command expected : String) (attempts : Nat) :
    (isOpen : Bool) → (after? : Option Bool) → List Sending → Bool → Prop
  | tried {after? : Option Bool} {outcome : Except Fault String} {others : List Sending} {accepted : Bool}
      (tried : IsTried command expected (max attempts 1) after? (.exchanged command outcome :: others) accepted) :
      Meets command expected attempts true after? (.exchanged command outcome :: others) accepted
  | unsent : Meets command expected attempts false (some false) [] false

/-- What becomes of a command at a station depends on its port. -/
theorem ensures_meets (command expected : String) (attempts : Nat) (earlier : List Sending) (isOpen : Bool) :
    (if isOpen then attempt command expected (max attempts 1) else .done false).Ensures
      (fun after? sendings accepted => ∃ more, sendings = earlier ++ more ∧
        Meets (Text.stripLineEnd command) expected attempts isOpen after? more accepted)
      (some isOpen) earlier := by
  cases isOpen with
  | false => exact ⟨[], (List.append_nil _).symm, .unsent⟩
  | true =>
      refine (ensures_attempt command expected (max attempts 1) (some true) earlier).mono ?_
      rintro after? sendings accepted ⟨more, rfl, tried, first⟩
      obtain ⟨outcome, first⟩ := first rfl (by omega)
      obtain ⟨others, rfl⟩ := List.head?_eq_some_iff.mp first
      exact ⟨_, rfl, .tried tried⟩

/-- What becomes of a command stands behind the earlier sendings. -/
theorem ensures_sendExpect (command expected : String) (attempts : Nat) (isOpen? : Option Bool)
    (earlier : List Sending) :
    (sendExpect command expected attempts).Ensures
      (fun after? sendings accepted => ∃ isOpen more, (∀ known ∈ isOpen?, isOpen = known) ∧
        sendings = earlier ++ more ∧
        Meets (Text.stripLineEnd command) expected attempts isOpen after? more accepted)
      isOpen? earlier := by
  intro station known
  refine (ensures_meets command expected attempts earlier station.port.isOpen).mono ?_
  rintro after? sendings accepted ⟨more, rfl, meets⟩
  exact ⟨_, more, known, rfl, meets⟩

end Operation

open Operation

namespace Traffic

variable {σ : Type} {first : Bench σ} {routines : List (Routine Bool)} {last : Traffic Bool σ}

/-- A call that sends a command until the reply is the expected one has come to its end, having found the port
open or closed. -/
structure SendsUntil (first : Bench σ) (routines : List (Routine Bool)) (last : Traffic Bool σ) (number : Nat)
    (command expected : String) (attempts time : Nat) (accepted : Bool) (before ended : Traffic Bool σ) :
    Prop where
  spans : (Traffic.start first routines).Spans last number (sendExpect command expected attempts) time accepted
    before ended
  /-- At least one exchange takes place. -/
  whenOpen : before.bench.isOpen = true → ∃ outcome others,
    IsTried (Text.stripLineEnd command) expected (max attempts 1) (some ended.bench.isOpen)
        (.exchanged (Text.stripLineEnd command) outcome :: others) accepted ∧
      Journal.outcomes number last.journal =
        (Text.stripLineEnd command, outcome) :: others.filterMap Sending.exchange?
  /-- The call ends at once and leaves everything as it has been. -/
  whenClosed : before.bench.isOpen = false → accepted = false ∧
    before.turn number = ⟨before.bench, before.callers.set number (.finished before.bench.clock false)⟩ ∧
    Journal.outcomes number last.journal = []
  /-- Every exchange writes the whole command, unless the write fails. -/
  writes : (∀ routine ∈ routines, routine.Only (fun _ => True) True) →
    Journal.writes number last.journal = (Journal.outcomes number last.journal).filterMap Journal.reached?

/-- On a closed port a call that sends a command ends at the turn in which it begins. -/
theorem Begins.turn_eq {command expected : String} {attempts number : Nat} {before : Traffic Bool σ}
    (begins : before.Begins number (sendExpect command expected attempts))
    (closed : before.bench.isOpen = false) :
    before.turn number = ⟨before.bench, before.callers.set number (.finished before.bench.clock false)⟩ := by
  obtain ⟨_, caller, here, goesOn⟩ := begins
  have stops : caller.goOn number before.bench = (before.bench, .finished before.bench.clock false) := by
    change before.bench.station.port.isOpen = false at closed
    rw [goesOn, sendExpect, Caller.run, closed]
    rfl
  rw [Traffic.turn_eq here, stops]

/-- A command is sent until the reply is the expected one, but not beyond its attempts, of which there is at least
one, and not beyond the loss of the connection. Among callers that release every turn they claim, the call comes
to its end. -/
theorem Reaches.sendsUntil (fresh : first.IsFresh) (free : first.cycleLine = [])
    (steady : first.station.ticker.IsSteady) (reached : (Traffic.start first routines).Reaches last) :
    ((∀ routine ∈ routines, routine.IsCyclic True True (· ≠ .inside) .before) → last.Ends) ∧
      ∀ {number delay attempts time : Nat} {command expected : String} {accepted : Bool},
        routines[number]? = some (.pause delay (sendExpect command expected attempts)) →
        last.callers[number]? = some (.finished time accepted) →
        ∃ before ended,
          SendsUntil first routines last number command expected attempts time accepted before ended := by
  refine ⟨fun cyclic => reached.ends fresh free steady cyclic, ?_⟩
  intro number delay attempts time command expected accepted called finished
  obtain ⟨before, ended, after?, sendings, spans, told, known, more, rfl, meets⟩ :=
    reached.spans fresh called (fun station => ensures_meets command expected attempts [] station.port.isOpen)
      finished
  refine ⟨before, ended, spans, ?_, ?_, fun only => reached.writes_eq_told fresh only finished⟩
  · intro isOpen
    rw [show before.bench.station.port.isOpen = true from isOpen] at meets
    cases meets with
    | tried tried => exact ⟨_, _, tried.after known, told⟩
  · intro closed
    rw [show before.bench.station.port.isOpen = false from closed] at meets
    cases meets
    exact ⟨rfl, spans.begins.turn_eq closed, told⟩

/-- The far end is busy at first and accepts the command when it is sent again. -/
theorem Reaches.sendsUntil_twice :
    let respond : Nat → String → Nat × List String := fun count _ =>
      (count + 1, if count = 0 then ["busy"] else ["ok"])
    let first := Bench.opened { Settings.defaults with tickPeriod := 0 } ⟨0, respond⟩ ⟨5, none⟩
    let routines := [Routine.pause 0 (sendExpect "*RST" "ok" 3)]
    let last := (Traffic.start first routines).play
      (.turn 0 :: (List.replicate 2 [Move.elapse, .deliver 0, .turn 0]).flatten)
    last.Ends ∧ ∃ time before ended,
      SendsUntil first routines last 0 "*RST" "ok" 3 time true before ended := by
  intro respond first routines last
  have cyclic : ∀ routine ∈ routines, routine.IsCyclic True True (· ≠ .inside) .before := by
    intro routine member
    rw [List.mem_singleton.mp member]
    exact isCyclic_sendExpect (Or.inr trivial) (by decide) "*RST" "ok" 3
  have here := Reaches.sendsUntil (Bench.isFresh_opened _ ⟨0, respond⟩ ⟨5, none⟩) rfl
    (Ticker.isSteady_start _ _) (reaches_play (Traffic.start first routines)
      (.turn 0 :: (List.replicate 2 [Move.elapse, .deliver 0, .turn 0]).flatten))
  have given : last.callers[0]?.map Caller.result? = some (some (10, true)) := by decide +kernel
  obtain ⟨caller, standing, result⟩ := Option.map_eq_some_iff.mp given
  rw [Caller.eq_finished_of_result? result] at standing
  exact ⟨here.1 cyclic, 10, here.2 rfl standing⟩

end Traffic

end DelayGenerator
