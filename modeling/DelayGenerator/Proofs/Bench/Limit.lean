/-
This file shows that the lines that come in are what the framer makes of bytes: they are printable and no longer than
the limit.
-/

import DelayGenerator.Proofs.Bench.Freshness
import DelayGenerator.Proofs.Line.Framer

namespace DelayGenerator

/-- A property of framers goes on, and the lines that framers with it complete have another one. -/
structure Framer.Yields (framed : Framer → Prop) (line : String → Prop) : Prop where
  reset : ∀ {framer : Framer}, framed framer → framed framer.reset
  feed : ∀ {framer : Framer}, framed framer → ∀ bytes,
    framed (framer.feed bytes).1 ∧ ∀ text ∈ (framer.feed bytes).2, line text

namespace Framer

theorem yields_isBounded (limit : Nat) : Yields (IsBounded limit) fun text => text.length ≤ limit where
  reset := IsBounded.reset
  feed := IsBounded.feed

theorem yields_isPlain (limit : Nat) : Yields (IsPlain limit) (Text.IsLine limit) where
  reset := IsPlain.reset
  feed := IsPlain.feed

end Framer

namespace Bench

variable {σ : Type}

/-- The framer has its property, and all lines that have come in have theirs. -/
structure KeepsLines (framed : Framer → Prop) (line : String → Prop) (bench : Bench σ) : Prop where
  framer : framed bench.station.link.framer
  lines : ∀ text ∈ Journal.lines bench.journal, line text

namespace KeepsLines

variable {framed : Framer → Prop} {line : String → Prop} {bench after : Bench σ}

theorem of_fresh (fresh : bench.IsFresh) (framer : framed bench.station.link.framer) :
    bench.KeepsLines framed line where
  framer := framer
  lines := by
    have empty : bench.journal = [] := fresh.journal
    rw [empty]
    simp [Journal.lines]

/-- An event without lines changes nothing. -/
theorem record (keeps : bench.KeepsLines framed line) {entry : Entry} (silent : entry.event.lines = [])
    (journal : after.journal = entry :: bench.journal)
    (framer : after.station.link.framer = bench.station.link.framer) : after.KeepsLines framed line where
  framer := by
    rw [framer]
    exact keeps.framer
  lines := by
    rw [journal, Journal.lines, silent, List.append_nil]
    exact keeps.lines

theorem keep (keeps : bench.KeepsLines framed line) (journal : after.journal = bench.journal)
    (framer : after.station.link.framer = bench.station.link.framer) : after.KeepsLines framed line where
  framer := by
    rw [framer]
    exact keeps.framer
  lines := by
    rw [journal]
    exact keeps.lines

theorem receive (yields : Framer.Yields framed line) (keeps : bench.KeepsLines framed line) (bytes : List UInt8)
    (station : after.station = bench.station.receive bytes) : after.KeepsLines framed line := by
  obtain ⟨framer, received⟩ := yields.feed keeps.framer bytes
  constructor
  · rw [station]
    exact framer
  · intro text member
    rw [Bench.journal, station] at member
    rcases List.mem_append.mp member with old | new
    · exact keeps.lines text old
    · exact received text new

theorem perform (yields : Framer.Yields framed line) (keeps : bench.KeepsLines framed line) (caller : Nat) (act : Act) :
    (bench.onStation (Station.perform caller act)).KeepsLines framed line := by
  cases act with
  | receive bytes =>
      have received : (bench.onStation (Station.receive bytes)).KeepsLines framed line :=
        keeps.receive yields bytes rfl
      exact received.record rfl rfl rfl
  | resetLink =>
      have cleared : (bench.onLink Link.reset).KeepsLines framed line := ⟨yields.reset keeps.framer, keeps.lines⟩
      exact cleared.record rfl rfl rfl
  | _ => exact keeps.record rfl rfl rfl

theorem writeFailed (keeps : bench.KeepsLines framed line) (caller : Nat) (command : String) (fault : Fault) :
    (bench.writeFailed caller command fault).KeepsLines framed line := by
  cases fault <;> exact keeps.record rfl rfl rfl

theorem endTransmission (keeps : bench.KeepsLines framed line) (caller : Nat) (bytes : List UInt8)
    (result : Except Fault Unit) : (bench.endTransmission caller bytes result).KeepsLines framed line := by
  cases result with
  | ok done => exact keeps.record rfl rfl rfl
  | error fault => exact keeps

theorem deliver (yields : Framer.Yields framed line) (keeps : bench.KeepsLines framed line) (index : Nat) :
    (bench.deliver index).KeepsLines framed line := by
  unfold Bench.deliver
  split
  · exact keeps.receive yields _ rfl
  · exact keeps.receive yields _ rfl
  · exact keeps.keep rfl rfl
  · exact keeps

end KeepsLines

end Bench

namespace Traffic

variable {α σ : Type} {framed : Framer → Prop} {line : String → Prop}

theorem keepsLines_beat (yields : Framer.Yields framed line) {before after : Traffic α σ}
    (keeps : before.bench.KeepsLines framed line) (beat : before.Beat after) : after.bench.KeepsLines framed line := by
  cases beat with
  | @advance index caller next bench here advance =>
      cases advance with
      | act action follow => exact keeps.perform yields index action
      | start first course => exact keeps.record rfl rfl rfl
      | @failAtOnce command next fault first course =>
          have started : (before.bench.started index command).KeepsLines framed line := keeps.record rfl rfl rfl
          exact started.writeFailed index _ _
      | write due => exact keeps.record rfl rfl rfl
      | failLate due => exact keeps.writeFailed index _ _
      | takeLine due first => exact keeps.record rfl rfl rfl
      | wakeInVain empty woken => exact keeps.record rfl rfl rfl
      | timeOut empty asleep due => exact keeps.record rfl rfl rfl
      | endTransmission due => exact keeps.endTransmission index _ _
      | claim first => exact keeps.record rfl rfl rfl
      | release follow => exact keeps.record rfl rfl rfl
      | _ => exact keeps.keep rfl rfl
  | deliver index possible => exact keeps.deliver yields index
  | tick possible => exact keeps.record rfl rfl rfl
  | elapse possible => exact keeps.keep rfl rfl

theorem Reaches.keepsLines (yields : Framer.Yields framed line) {first : Bench σ} (fresh : first.IsFresh)
    (framer : framed first.station.link.framer) {routines : List (Routine α)}
    {last : Traffic α σ} (reached : (Traffic.start first routines).Reaches last) :
    last.bench.KeepsLines framed line :=
  reached.invariant (fun traffic => traffic.bench.KeepsLines framed line) (.of_fresh fresh framer)
    fun _ _ beat keeps => keepsLines_beat yields keeps beat

end Traffic

namespace Journal

/-- What a caller is told has come in as a line. -/
theorem mem_lines_of_outcome {start : Link} {journal : List Entry} (orderly : IsOrderly start journal)
    {number : Nat} {command text : String} (told : (command, .ok text) ∈ outcomes number journal) :
    text ∈ lines journal := by
  obtain ⟨later, past, time, line, rfl, rfl⟩ := exists_ended_of_outcome told
  obtain ⟨mark, course, before, ⟨⟨began, rfl⟩, _⟩, _, _, found⟩ := opens_of_reply (Every.middle orderly)
  rw [lines_append, lines, lines_append]
  simp [List.mem_of_getElem? found]

end Journal

/-- What a caller is told of is a line. -/
theorem Traffic.Reaches.isLine_of_told {α σ : Type} {limit : Nat} {first : Bench σ} (fresh : first.IsFresh)
    (framer : first.station.link.framer.IsPlain limit) {routines : List (Routine α)} {last : Traffic α σ}
    (reached : (Traffic.start first routines).Reaches last) {number : Nat} {command reply : String}
    (told : (command, .ok reply) ∈ Journal.outcomes number last.journal) : Text.IsLine limit reply :=
  (reached.keepsLines (Framer.yields_isPlain limit) fresh framer).lines reply
    (Journal.mem_lines_of_outcome (reached.regular fresh).recorded.orderly told)

end DelayGenerator
