/-
This file reads the journal: what it tells of the link, how far it has seen the exchange under way,
and which entry may follow the entries so far. A journal lists its latest entry first.
-/

import DelayGenerator.Bench.Basic
import DelayGenerator.Proofs.Line.ReplyQueue

namespace DelayGenerator

/-- What an event does to the link, apart from its unfinished line, which no event records. -/
def Event.onLink : Event → Link → Link
  | .began _ _ _, link => link.arm
  | .ended _ _ (.ok _), link => link.empty
  | .ended _ _ (.error (.writeTimedOut _)), link => link.countWriteTimeout
  | .ended _ _ (.error (.replyTimedOut _)), link => link.countReplyTimeout
  | .received lines, link =>
    { link with
      queue := link.queue.pushAll lines
      isWoken := link.isWoken || !lines.isEmpty }
  | .did _ .resetLink, link => { link.resetCounters with queue := link.queue.drain }
  | .did _ .resetCounters, link => link.resetCounters
  | _, link => link

/-- The lines that an event completes. -/
def Event.lines : Event → List String
  | .received lines => lines
  | _ => []

/-- How far the exchange under way has come. -/
inductive Phase where
  | idle
  | begun (caller : Nat) (command : String) (mark : Nat)
  | written (caller : Nat) (command : String) (mark sent : Nat) (answer : List String)

namespace Phase

/-- Who carries out the exchange under way. -/
def caller? : Phase → Option Nat
  | idle => none
  | begun caller _ _ => some caller
  | written caller _ _ _ _ => some caller

/-- The phase after an entry. A command that someone else passes on is not part of the exchange. -/
def after (phase : Phase) (entry : Entry) : Phase :=
  match entry.event, phase with
  | .began caller command mark, _ => begun caller command mark
  | .ended _ _ _, _ => idle
  | .wrote caller _ answer, begun holder command mark =>
    if caller = holder then written holder command mark entry.time answer
    else begun holder command mark
  | _, phase => phase

end Phase

/-- An event that begins or ends an exchange. -/
def Event.isBound : Event → Bool
  | .began _ _ _ => true
  | .ended _ _ _ => true
  | _ => false

/-- An event that is no part of an exchange. -/
def Event.isAside : Event → Bool
  | .began _ _ _ => false
  | .wrote _ _ _ => false
  | .ended _ _ _ => false
  | _ => true

namespace Phase

/-- An event aside leaves the exchange under way as it is. -/
theorem after_aside (phase : Phase) {entry : Entry} (aside : entry.event.isAside = true) :
    phase.after entry = phase := by
  unfold after
  cases event : entry.event <;> simp_all [Event.isAside]

/-- A command that someone else passes on leaves the exchange under way as it is. -/
theorem after_foreign {phase : Phase} {caller : Nat} (foreign : phase.caller? ≠ some caller)
    (time : Nat) (command : String) (answer : List String) :
    phase.after ⟨time, .wrote caller command answer⟩ = phase := by
  cases phase with
  | begun holder command mark =>
      have different : caller ≠ holder := fun same => foreign (by rw [same]; rfl)
      simp [after, different]
  | idle => rfl
  | written holder command mark sent answer => rfl

theorem eq_idle {phase : Phase} (free : phase.caller? = none) : phase = .idle := by
  cases phase <;> simp_all [caller?]

end Phase

namespace Journal

/-- All lines that the entries complete, in the order in which they come in. -/
def lines : List Entry → List String
  | [] => []
  | entry :: past => lines past ++ entry.event.lines

theorem lines_append (later past : List Entry) : lines (later ++ past) = lines past ++ lines later := by
  induction later with
  | nil => exact (List.append_nil _).symm
  | cons entry later inductionHypothesis =>
      simp only [List.cons_append, lines, inductionHypothesis, List.append_assoc]

/-- The lines completed since the latest exchange began. -/
def fresh : List Entry → List String
  | [] => []
  | ⟨_, .began _ _ _⟩ :: _ => []
  | entry :: past => fresh past ++ entry.event.lines

/-- What a reading finds in the entries, from the first to the latest. -/
def collect {α : Type} (read : Event → Option α) : List Entry → List α
  | [] => []
  | entry :: past => collect read past ++ (read entry.event).toList

section

variable {α : Type} {read : Event → Option α} {entry : Entry}

theorem collect_cons_none (past : List Entry) (silent : read entry.event = none) :
    collect read (entry :: past) = collect read past := by
  rw [collect, silent]
  exact List.append_nil _

theorem collect_cons_some (past : List Entry) {value : α} (found : read entry.event = some value) :
    collect read (entry :: past) = collect read past ++ [value] := by
  rw [collect, found]
  rfl

end

/-- What a reading finds, it finds in one of the entries. -/
theorem mem_collect {α : Type} {read : Event → Option α} {value : α} {journal : List Entry} :
    value ∈ collect read journal ↔
      ∃ entry ∈ journal, read entry.event = some value := by
  induction journal with
  | nil => simp [collect]
  | cons entry past inductionHypothesis =>
      rw [collect, List.mem_append, inductionHypothesis, Option.mem_toList]
      simp [or_comm]

/-- The link that the entries make of an earlier one. -/
def link (start : Link) : List Entry → Link
  | [] => start
  | entry :: past => entry.event.onLink (link start past)

def phase : List Entry → Phase
  | [] => .idle
  | entry :: past => (phase past).after entry

/-- The entries that may follow: one exchange is under way at a time, and how it ends depends on what
has come in since it began. -/
inductive Admits (start : Link) (past : List Entry) : Entry → Prop where
  | began (time caller : Nat) (command : String) (idle : phase past = .idle) :
      Admits start past ⟨time, .began caller command (link start past).queue.next⟩
  | wrote {caller mark : Nat} {command : String} (time : Nat) (answer : List String)
      (begun : phase past = .begun caller command mark) :
      Admits start past ⟨time, .wrote caller command answer⟩
  | passed {caller : Nat} (time : Nat) (command : String) (answer : List String)
      (foreign : (phase past).caller? ≠ some caller) :
      Admits start past ⟨time, .wrote caller command answer⟩
  | failed {caller mark : Nat} {command : String} {fault : Fault} (time : Nat)
      (begun : phase past = .begun caller command mark)
      (kind : fault = .notConnected ∨ fault = .writeTimedOut command) :
      Admits start past ⟨time, .ended caller command (.error fault)⟩
  | replied {caller mark sent : Nat} {command : String} {answer : List String} {line : QueuedLine}
      {others : List QueuedLine} (time : Nat)
      (written : phase past = .written caller command mark sent answer)
      (first : (link start past).queue.first? = some (line, others)) :
      Admits start past ⟨time, .ended caller command (.ok line)⟩
  | wokenInVain {caller mark sent : Nat} {command : String} {answer : List String} (time : Nat)
      (written : phase past = .written caller command mark sent answer)
      (empty : (link start past).queue.first? = none) (woken : (link start past).isWoken = true) :
      Admits start past ⟨time, .ended caller command (.error (.wokenWithoutLine command))⟩
  | timedOut {caller mark sent : Nat} {command : String} {answer : List String} (time : Nat)
      (written : phase past = .written caller command mark sent answer)
      (empty : (link start past).queue.first? = none) (asleep : (link start past).isWoken = false)
      (late : sent + start.replyBound ≤ time) :
      Admits start past ⟨time, .ended caller command (.error (.replyTimedOut command))⟩
  | aside {entry : Entry} (aside : entry.event.isAside = true) : Admits start past entry

/-- A property of every entry with the entries before it. -/
def Every (property : List Entry → Entry → Prop) : List Entry → Prop
  | [] => True
  | entry :: past => property past entry ∧ Every property past

/-- What holds of every entry, holds of every earlier entry. -/
theorem Every.of_append {property : List Entry → Entry → Prop} {later past : List Entry}
    (every : Every property (later ++ past)) : Every property past := by
  induction later with
  | nil => exact every
  | cons entry later inductionHypothesis => exact inductionHypothesis every.2

/-- Every entry may follow the earlier ones, and is not earlier than they. -/
def IsOrderly (start : Link) : List Entry → Prop :=
  Every fun past entry => Admits start past entry ∧ ∀ earlier ∈ past, earlier.time ≤ entry.time

end Journal

end DelayGenerator
