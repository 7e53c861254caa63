/-
This file shows how the far end serves the commands that it takes: the journal holds them in the order in
which they come, each with the answer to it.
-/

import DelayGenerator.Proofs.Bench.Chronicle
import DelayGenerator.Proofs.Bench.Transcript

namespace DelayGenerator

/-- Who has written a command, and how the far end answers it. -/
def Event.written? : Event → Option (Nat × String × List String)
  | .wrote caller command answer => some (caller, command, answer)
  | _ => none

namespace FarEnd

variable {σ : Type}

/-- The far end once it has taken a command. -/
def taken (farEnd : FarEnd σ) (command : String) : FarEnd σ :=
  { farEnd with state := (farEnd.respond farEnd.state command).1 }

/-- The far end once it has taken commands one after another. -/
def takenAll (farEnd : FarEnd σ) (commands : List String) : FarEnd σ := commands.foldl taken farEnd

/-- The answers to commands that come one after another. -/
def answers (farEnd : FarEnd σ) : List String → List (List String)
  | [] => []
  | command :: rest => (farEnd.respond farEnd.state command).2 :: answers (farEnd.taken command) rest

theorem takenAll_append (farEnd : FarEnd σ) (commands more : List String) :
    farEnd.takenAll (commands ++ more) = (farEnd.takenAll commands).takenAll more :=
  List.foldl_append

theorem answers_append (farEnd : FarEnd σ) (commands more : List String) :
    farEnd.answers (commands ++ more) =
      farEnd.answers commands ++ (farEnd.takenAll commands).answers more := by
  induction commands generalizing farEnd with
  | nil => rfl
  | cons command rest inductionHypothesis =>
      rw [List.cons_append, answers, answers, inductionHypothesis, List.cons_append]
      rfl

/-- A far end that does not remember answers each command in one way. -/
theorem answers_eq_map {farEnd : FarEnd σ} {answer : String → List String}
    (plain : ∀ state command, (farEnd.respond state command).2 = answer command)
    (commands : List String) : farEnd.answers commands = commands.map answer := by
  induction commands generalizing farEnd with
  | nil => rfl
  | cons command rest inductionHypothesis =>
      have later : (farEnd.taken command).answers rest = rest.map answer := inductionHypothesis plain
      rw [answers, later, plain, List.map_cons]

end FarEnd

namespace Bench

variable {σ : Type}

/-- The commands that the far end has taken. -/
def commands (bench : Bench σ) : List String :=
  (Journal.collect Event.written? bench.journal).map fun write => write.2.1

/-- The far end has taken the commands in the journal and given the answers in it. -/
structure Serves (farEnd : FarEnd σ) (bench : Bench σ) : Prop where
  taken : bench.farEnd = farEnd.takenAll bench.commands
  answers : (Journal.collect Event.written? bench.journal).map (fun write => write.2.2) =
    farEnd.answers bench.commands

variable {farEnd : FarEnd σ} {bench after : Bench σ}

theorem Serves.keep (serves : bench.Serves farEnd)
    (writes : Journal.collect Event.written? after.journal =
      Journal.collect Event.written? bench.journal)
    (same : after.farEnd = bench.farEnd) : after.Serves farEnd where
  taken := by
    rw [commands, writes, same]
    exact serves.taken
  answers := by
    rw [commands, writes]
    exact serves.answers

theorem Serves.transfer (serves : bench.Serves farEnd) (caller : Nat) (command : String) :
    (bench.transfer caller command).Serves farEnd := by
  have writes : Journal.collect Event.written? (bench.transfer caller command).journal =
      Journal.collect Event.written? bench.journal ++
        [(caller, command, (bench.farEnd.respond bench.farEnd.state command).2)] :=
    Journal.collect_cons_some _ rfl
  have commands : (bench.transfer caller command).commands = bench.commands ++ [command] := by
    rw [Bench.commands, writes, List.map_append]
    rfl
  constructor
  · rw [commands, FarEnd.takenAll_append, ← serves.taken]
    rfl
  · rw [commands, writes, List.map_append, serves.answers, FarEnd.answers_append, ← serves.taken]
    rfl

end Bench

namespace Bench

/-- A far end that does not remember has answered every write of a command in one way. -/
theorem Serves.answer_eq {σ : Type} {farEnd : FarEnd σ} {bench : Bench σ}
    (serves : bench.Serves farEnd) (answer : String → List String)
    (plain : ∀ state command, (farEnd.respond state command).2 = answer command)
    {write : Nat × String × List String}
    (member : write ∈ Journal.collect Event.written? bench.journal) :
    write.2.2 = answer write.2.1 := by
  have answers := serves.answers
  rw [FarEnd.answers_eq_map plain, commands, List.map_map] at answers
  exact List.map_inj_left.mp answers write member

end Bench

/-- Whatever a caller does, the far end serves the commands that it takes. -/
theorem Advance.serves {α σ : Type} {number : Nat} {bench after : Bench σ} {caller next : Caller α}
    {farEnd : FarEnd σ} (advance : Advance number bench caller after next)
    (serves : bench.Serves farEnd) : after.Serves farEnd := by
  have silent {entry : Entry} {later : Bench σ} (journal : later.journal = entry :: bench.journal)
      (silent : entry.event.written? = none) (same : later.farEnd = bench.farEnd) :
      later.Serves farEnd := by
    apply serves.keep _ same
    rw [journal]
    exact Journal.collect_cons_none _ silent
  cases advance with
  | act action follow =>
      apply serves.keep
      · exact Bench.collect_perform (fun _ => rfl) (fun _ _ => rfl) number action bench
      · rfl
  | start first course => exact silent rfl rfl rfl
  | @failAtOnce command follow fault first course =>
      have started : (bench.started number command).Serves farEnd := silent rfl rfl rfl
      cases fault <;> exact started.keep (Journal.collect_cons_none _ rfl) rfl
  | write due => exact serves.transfer number _
  | @failLate command follow finish fault due => cases fault <;> exact silent rfl rfl rfl
  | takeLine due first => exact silent rfl rfl rfl
  | wakeInVain empty woken => exact silent rfl rfl rfl
  | timeOut empty asleep due => exact silent rfl rfl rfl
  | @endTransmission bytes finish follow result due =>
      cases result with
      | ok done => exact serves.transfer number _
      | error fault => exact serves
  | claim first => exact silent rfl rfl rfl
  | release follow => exact silent rfl rfl rfl
  | _ => exact serves.keep rfl rfl

/-- After every run the far end has answered what it has been written. -/
theorem Traffic.Reaches.serves {α σ : Type} {first : Bench σ} (fresh : first.IsFresh)
    {routines : List (Routine α)} {last : Traffic α σ}
    (reached : (Traffic.start first routines).Reaches last) : last.bench.Serves first.farEnd := by
  refine reached.invariant (fun traffic => traffic.bench.Serves first.farEnd) ?_ ?_
  · have empty : first.journal = [] := fresh.journal
    constructor
    · change first.farEnd = first.farEnd.takenAll first.commands
      rw [Bench.commands, empty]
      rfl
    · change (Journal.collect Event.written? first.journal).map _ = first.farEnd.answers first.commands
      rw [Bench.commands, empty]
      rfl
  · intro before after beat serves
    cases beat with
    | advance here advance => exact advance.serves serves
    | deliver index possible =>
        apply serves.keep
        · exact Bench.collect_deliver (fun _ => rfl) index before.bench
        · change (before.bench.deliver index).farEnd = before.bench.farEnd
          unfold Bench.deliver
          split <;> rfl
    | tick possible => exact serves.keep (Journal.collect_cons_none _ rfl) rfl
    | elapse possible => exact serves.keep rfl rfl

end DelayGenerator
