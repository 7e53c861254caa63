/-
This file shows that the cached snapshot stays valid, whatever comes in and however callers take turns, as
long as the callers store nothing else. A routine may rely on what it finds: the snapshot in the cache is
valid, and replies are lines.
-/

import DelayGenerator.Proofs.Bench.Alone
import DelayGenerator.Proofs.Bench.Transcript
import DelayGenerator.Proofs.Line.ReplyQueue
import DelayGenerator.Proofs.Pulse.Validity

namespace DelayGenerator

/-- A reply is a line. -/
def IsPlainOutcome (limit : Nat) (outcome : Except Fault String) : Prop :=
  ∀ reply, outcome = .ok reply → Text.IsLine limit reply

theorem isPlainOutcome_error (limit : Nat) (fault : Fault) : IsPlainOutcome limit (.error fault) := by
  intro reply same
  contradiction

theorem isPlainOutcome_ok {limit : Nat} {reply : String} (line : Text.IsLine limit reply) :
    IsPlainOutcome limit (.ok reply) := by
  intro other same
  cases same
  exact line

namespace Routine

variable {α β : Type} {limit : Nat} {gives : α → Prop} {further : β → Prop}

/-- The routine stores only valid snapshots and gives only values with a property, if the snapshots that it
finds in the cache are valid and the replies that it gets are lines. -/
def KeepsValid (limit : Nat) (gives : α → Prop) : Routine α → Prop
  | .done value => gives value
  | .look next => ∀ station, station.cache.IsValid limit → (next station).KeepsValid limit gives
  | .act action next =>
    (∀ snapshot, action = .store snapshot → snapshot.IsValid limit) ∧ next.KeepsValid limit gives
  | .ask _ next => ∀ outcome, IsPlainOutcome limit outcome → (next outcome).KeepsValid limit gives
  | .transmit _ _ next => ∀ outcome, (next outcome).KeepsValid limit gives
  | .pause _ next => next.KeepsValid limit gives
  | .rest next => next.KeepsValid limit gives
  | .claim next => next.KeepsValid limit gives
  | .release next => next.KeepsValid limit gives

theorem KeepsValid.andThen {routine : Routine α} (first : routine.KeepsValid limit gives)
    {follow : α → Routine β} (second : ∀ value, gives value → (follow value).KeepsValid limit further) :
    (routine.andThen follow).KeepsValid limit further := by
  induction routine with
  | done value => exact second value first
  | look next inductionHypothesis =>
      exact fun station valid => inductionHypothesis station (first station valid)
  | act action next inductionHypothesis => exact ⟨first.1, inductionHypothesis first.2⟩
  | ask command next inductionHypothesis =>
      exact fun outcome plain => inductionHypothesis outcome (first outcome plain)
  | transmit bytes bound next inductionHypothesis =>
      exact fun outcome => inductionHypothesis outcome (first outcome)
  | pause duration next inductionHypothesis => exact inductionHypothesis first
  | rest next inductionHypothesis => exact inductionHypothesis first
  | claim next inductionHypothesis => exact inductionHypothesis first
  | release next inductionHypothesis => exact inductionHypothesis first

theorem KeepsValid.mono {routine : Routine α} (keeps : routine.KeepsValid limit gives) {fewer : α → Prop}
    (weaker : ∀ value, gives value → fewer value) : routine.KeepsValid limit fewer := by
  rw [← andThen_done routine]
  exact keeps.andThen weaker

/-- A routine that stores nothing keeps the snapshot valid. -/
theorem Only.keepsValid {routine : Routine α} {cycles : Prop}
    (only : routine.Only (fun action => ∀ snapshot, action ≠ .store snapshot) cycles) :
    routine.KeepsValid limit fun _ => True := by
  induction routine with
  | done value => trivial
  | look next inductionHypothesis => exact fun station valid => inductionHypothesis station (only station)
  | act action next inductionHypothesis =>
      exact ⟨fun snapshot same => absurd same (only.1 snapshot), inductionHypothesis only.2⟩
  | ask command next inductionHypothesis => exact fun outcome plain => inductionHypothesis outcome (only outcome)
  | transmit bytes bound next inductionHypothesis => exact only.elim
  | pause duration next inductionHypothesis => exact inductionHypothesis only
  | rest next inductionHypothesis => exact inductionHypothesis only
  | claim next inductionHypothesis => exact inductionHypothesis only.2
  | release next inductionHypothesis => exact inductionHypothesis only

end Routine

/-- What the caller still has before it keeps the snapshot valid. -/
def Caller.KeepsValid {α : Type} (limit : Nat) (gives : α → Prop) (caller : Caller α) : Prop :=
  ∃ rest, caller.At rest ∧ rest.KeepsValid limit gives

/-- The unfinished line and all lines that wait are as lines can be. -/
structure Link.IsPlain (limit : Nat) (link : Link) : Prop where
  framer : link.framer.IsPlain limit
  lines : ∀ line ∈ link.queue.lines, Text.IsLine limit line.text

namespace Link.IsPlain

variable {limit : Nat} {link after : Link}

theorem receive (plain : link.IsPlain limit) (bytes : List UInt8) : (link.receive bytes).IsPlain limit := by
  obtain ⟨framer, completed⟩ := plain.framer.feed bytes
  refine ⟨framer, fun line member => ?_⟩
  rcases ReplyQueue.mem_lines_pushAll member with old | new
  · exact plain.lines line old
  · exact completed line.text new

/-- Lines that wait may be discarded. -/
theorem drain (plain : link.IsPlain limit) (framer : after.framer = link.framer)
    (queue : after.queue = link.queue.drain) : after.IsPlain limit where
  framer := by
    rw [framer]
    exact plain.framer
  lines line member := by
    rw [queue, ReplyQueue.linesDrain] at member
    contradiction

theorem arm (plain : link.IsPlain limit) : link.arm.IsPlain limit := plain.drain rfl rfl

theorem reset (plain : link.IsPlain limit) : link.reset.IsPlain limit := ⟨plain.framer.reset, plain.arm.lines⟩

end Link.IsPlain

namespace Bench

variable {σ : Type} {limit : Nat} {bench after : Bench σ}

/-- Whatever has come in consists of lines, and the cached snapshot is valid. -/
structure IsClean (limit : Nat) (bench : Bench σ) : Prop where
  link : bench.station.link.IsPlain limit
  cache : bench.station.cache.IsValid limit

namespace IsClean

/-- A bench stays clean if its lines stay plain and nothing is stored. -/
theorem keep (clean : bench.IsClean limit) (link : after.station.link.IsPlain limit)
    (cache : after.station.cache = bench.station.cache) : after.IsClean limit where
  link := link
  cache := by
    rw [cache]
    exact clean.cache

theorem perform (clean : bench.IsClean limit) (caller : Nat) {action : Act}
    (valid : ∀ snapshot, action = .store snapshot → snapshot.IsValid limit) :
    (bench.onStation (Station.perform caller action)).IsClean limit := by
  cases action with
  | receive bytes => exact clean.keep (clean.link.receive bytes) rfl
  | resetLink => exact clean.keep clean.link.reset rfl
  | store snapshot => exact ⟨clean.link, valid snapshot rfl⟩
  | resetCounters => exact clean.keep ⟨clean.link.framer, clean.link.lines⟩ rfl
  | _ => exact ⟨clean.link, clean.cache⟩

theorem started (clean : bench.IsClean limit) (caller : Nat) (command : String) :
    (bench.started caller command).IsClean limit :=
  clean.keep clean.link.arm rfl

theorem writeFailed (clean : bench.IsClean limit) (caller : Nat) (command : String) (fault : Fault) :
    (bench.writeFailed caller command fault).IsClean limit := by
  cases fault <;> exact clean.keep ⟨clean.link.framer, clean.link.lines⟩ rfl

theorem endTransmission (clean : bench.IsClean limit) (caller : Nat) (bytes : List UInt8)
    (result : Except Fault Unit) : (bench.endTransmission caller bytes result).IsClean limit := by
  cases result <;> exact clean.keep clean.link rfl

theorem deliver (clean : bench.IsClean limit) (index : Nat) : (bench.deliver index).IsClean limit := by
  unfold Bench.deliver
  split
  · exact clean.keep (clean.link.receive _) rfl
  · exact clean.keep (clean.link.receive _) rfl
  · exact clean.keep clean.link rfl
  · exact clean

end IsClean

end Bench

/-- Whatever a caller does that keeps the snapshot valid, the bench stays clean, and the caller goes on like
this. -/
theorem Advance.keepsValid {α σ : Type} {number limit : Nat} {bench after : Bench σ} {caller next : Caller α}
    {gives : α → Prop} (advance : Advance number bench caller after next) (clean : bench.IsClean limit)
    (keeps : caller.KeepsValid limit gives) : after.IsClean limit ∧ next.KeepsValid limit gives := by
  obtain ⟨rest, stands, valid⟩ := keeps
  -- What the caller learns of its exchange, it goes on with.
  have told {command : String} {follow : Except Fault String → Routine α}
      (asks : ∃ whole, command = Text.stripLineEnd whole ∧ rest = .ask whole follow)
      {outcome : Except Fault String} (plain : IsPlainOutcome limit outcome) :
      Caller.KeepsValid limit gives (.ready (follow outcome)) := by
    obtain ⟨whole, rfl, rfl⟩ := asks
    exact ⟨_, rfl, valid outcome plain⟩
  cases advance with
  | finish value => exact ⟨clean, rest, stands, valid⟩
  | look follow =>
      cases stands
      exact ⟨clean, _, rfl, valid _ clean.cache⟩
  | act action follow =>
      cases stands
      exact ⟨clean.perform number valid.1, _, rfl, valid.2⟩
  | refuse command follow closed =>
      cases stands
      exact ⟨clean, _, rfl, valid _ (isPlainOutcome_error limit _)⟩
  | join command follow isOpen =>
      cases stands
      exact ⟨clean.keep clean.link rfl, _, ⟨command, rfl, rfl⟩, valid⟩
  | start first course => exact ⟨clean.started number _, rest, stands, valid⟩
  | failAtOnce first course =>
      exact ⟨(clean.started number _).writeFailed number _ _, told stands (isPlainOutcome_error limit _)⟩
  | write due => exact ⟨clean.keep clean.link rfl, rest, stands, valid⟩
  | failLate due => exact ⟨clean.writeFailed number _ _, told stands (isPlainOutcome_error limit _)⟩
  | takeLine due first =>
      have line := clean.link.lines _ (ReplyQueue.mem_of_first? first)
      exact ⟨clean.keep (clean.link.drain rfl rfl) rfl, told stands (isPlainOutcome_ok line)⟩
  | wakeInVain empty woken =>
      exact ⟨clean.keep clean.link rfl, told stands (isPlainOutcome_error limit _)⟩
  | timeOut empty asleep due =>
      exact ⟨clean.keep ⟨clean.link.framer, clean.link.lines⟩ rfl, told stands (isPlainOutcome_error limit _)⟩
  | failTransmission course =>
      cases stands
      exact ⟨clean.keep clean.link rfl, _, rfl, valid _⟩
  | startTransmission course =>
      cases stands
      exact ⟨clean.keep clean.link rfl, _, ⟨_, rfl⟩, valid⟩
  | endTransmission due =>
      obtain ⟨bound, rfl⟩ := stands
      exact ⟨clean.endTransmission number _ _, _, rfl, valid _⟩
  | _ =>
      cases stands
      exact ⟨clean.keep clean.link rfl, _, rfl, valid⟩

namespace Traffic

variable {α σ : Type} {limit : Nat}

/-- The bench is clean, and every caller keeps it so and gives what is expected of it. -/
structure IsClean (limit : Nat) (gives : Nat → α → Prop) (traffic : Traffic α σ) : Prop where
  bench : traffic.bench.IsClean limit
  callers : ∀ (index : Nat) (caller : Caller α), traffic.callers[index]? = some caller →
    caller.KeepsValid limit (gives index)

theorem IsClean.beat {gives : Nat → α → Prop} {before after : Traffic α σ} (clean : before.IsClean limit gives)
    (beat : before.Beat after) : after.IsClean limit gives := by
  cases beat with
  | @advance index caller next bench here advance =>
      obtain ⟨bench, keeps⟩ := advance.keepsValid clean.bench (clean.callers index caller here)
      exact ⟨bench, forall_set keeps fun other standing _ there => clean.callers other standing there⟩
  | deliver index possible => exact ⟨clean.bench.deliver index, clean.callers⟩
  | tick possible => exact ⟨clean.bench.keep clean.bench.link rfl, clean.callers⟩
  | elapse possible => exact ⟨clean.bench.keep clean.bench.link rfl, clean.callers⟩

/-- If all routines keep the snapshot valid, it is valid after every run, and callers have given what is
expected of them. -/
theorem Reaches.isClean {first : Bench σ} (clean : first.IsClean limit) {routines : List (Routine α)}
    {gives : Nat → α → Prop}
    (keep : ∀ (index : Nat) (routine : Routine α), routines[index]? = some routine →
      routine.KeepsValid limit (gives index))
    {last : Traffic α σ} (reached : (Traffic.start first routines).Reaches last) : last.IsClean limit gives := by
  refine reached.invariant (IsClean limit gives) ⟨clean, fun index caller here => ?_⟩
    fun _ _ beat clean => clean.beat beat
  obtain ⟨routine, found, rfl⟩ := ready_of_start here
  exact ⟨routine, rfl, keep index routine found⟩

/-- A caller that has finished has given what is expected of it. -/
theorem IsClean.gives {gives : Nat → α → Prop} {traffic : Traffic α σ} (clean : traffic.IsClean limit gives)
    {index time : Nat} {value : α} (finished : traffic.callers[index]? = some (.finished time value)) :
    gives index value := by
  obtain ⟨rest, rfl, valid⟩ := clean.callers index _ finished
  exact valid

end Traffic

end DelayGenerator
