/-
This file reads exchanges off an orderly journal: where an exchange begins, where its command is
written, and what has become of the link in its course.
-/

import DelayGenerator.Proofs.Bench.Chronicle

namespace DelayGenerator

/-- The queue holds the lines that come in while an exchange is under way. -/
theorem Event.holds_onLink {event : Event} {link : Link} {mark : Nat} {texts : List String}
    (alone : event.isBound = false) (holds : link.queue.Holds mark texts) :
    (event.onLink link).queue.Holds mark (texts ++ event.lines) := by
  cases event with
  | received lines => exact holds.pushAll lines
  | did caller act =>
      change (onLink (.did caller act) link).queue.Holds mark (texts ++ [])
      rw [List.append_nil]
      cases act with
      | resetLink => exact holds.drain
      | _ => exact holds
  | began caller command mark => contradiction
  | ended caller command outcome => contradiction
  | _ =>
      change link.queue.Holds mark (texts ++ [])
      rw [List.append_nil]
      exact holds

/-- Nothing but a reset takes lines out of the queue while an exchange is under way. -/
theorem Event.lines_onLink_ne_nil {event : Event} {link : Link} (alone : event.isBound = false)
    (kept : ∀ caller, event ≠ .did caller .resetLink)
    (some : link.queue.lines ≠ [] ∨ event.lines ≠ []) : (event.onLink link).queue.lines ≠ [] := by
  cases event with
  | received lines => exact ReplyQueue.lines_pushAll_ne_nil some
  | did caller act =>
      have old : link.queue.lines ≠ [] := by simpa [Event.lines] using some
      cases act with
      | resetLink => exact absurd rfl (kept caller)
      | _ => exact old
  | began caller command mark => contradiction
  | ended caller command outcome => contradiction
  | _ =>
      change link.queue.lines ≠ []
      simpa [Event.lines] using some

/-- The link remembers that a line has come in. -/
theorem Event.isWoken_onLink {event : Event} (link : Link) (alone : event.isBound = false) :
    (event.onLink link).isWoken = (link.isWoken || !event.lines.isEmpty) := by
  cases event with
  | received lines => rfl
  | did caller act => cases act <;> simp [Event.onLink, Event.lines, Link.resetCounters]
  | began caller command mark => contradiction
  | ended caller command outcome => contradiction
  | _ => simp [Event.onLink, Event.lines]

/-- Every line gets the next number, and no other event gives out numbers. -/
theorem Event.next_onLink (event : Event) (link : Link) :
    (event.onLink link).queue.next = link.queue.next + event.lines.length := by
  cases event with
  | received lines => exact link.queue.next_pushAll lines
  | did caller act => cases act <;> rfl
  | ended caller command outcome =>
      cases outcome with
      | ok line => rfl
      | error fault => cases fault <;> rfl
  | _ => rfl

namespace Journal

/-- What holds of every entry holds of an entry in the middle. -/
theorem Every.middle {property : List Entry → Entry → Prop} {later past : List Entry} {entry : Entry}
    (every : Every property (later ++ entry :: past)) : property past entry ∧ Every property past :=
  every.of_append

variable {start : Link} {past course before : List Entry} {caller mark sent : Nat}
  {command : String} {answer : List String}

/-- The latest exchange of a journal, with the entries in its course and the ones before it. -/
structure Opens (past : List Entry) (caller : Nat) (command : String) (mark : Nat)
    (course before : List Entry) : Prop where
  split : ∃ time, past = course ++ ⟨time, .began caller command mark⟩ :: before
  alone : ∀ entry ∈ course, entry.event.isBound = false

/-- An entry that neither begins nor ends an exchange adds to its course. -/
theorem Opens.after (opens : Opens past caller command mark course before) {entry : Entry}
    (alone : entry.event.isBound = false) :
    Opens (entry :: past) caller command mark (entry :: course) before where
  split := by
    obtain ⟨time, rfl⟩ := opens.split
    exact ⟨time, rfl⟩
  alone := by
    intro other member
    rcases List.mem_cons.mp member with rfl | earlier
    · exact alone
    · exact opens.alone other earlier

/-- What the journal has to say about an exchange that has come so far. -/
def Underway (start : Link) (past : List Entry) : Phase → Prop
  | .idle => True
  | .begun caller command mark =>
    ∃ course before, Opens past caller command mark course before ∧
      mark = (link start before).queue.next
  | .written caller command mark sent answer =>
    ∃ waiting writing before,
      Opens past caller command mark (waiting ++ ⟨sent, .wrote caller command answer⟩ :: writing)
        before ∧
      mark = (link start before).queue.next

theorem Underway.after {phase : Phase} (underway : Underway start past phase) {entry : Entry}
    (alone : entry.event.isBound = false) : Underway start (entry :: past) phase := by
  cases phase with
  | idle => trivial
  | begun caller command mark =>
      obtain ⟨course, before, opens, drained⟩ := underway
      exact ⟨entry :: course, before, opens.after alone, drained⟩
  | written caller command mark sent answer =>
      obtain ⟨waiting, writing, before, opens, drained⟩ := underway
      exact ⟨entry :: waiting, writing, before, opens.after alone, drained⟩

/-- An orderly journal bears out how far the exchange under way has come. -/
theorem underway (orderly : IsOrderly start past) : Underway start past (phase past) := by
  induction past with
  | nil => trivial
  | cons entry past inductionHypothesis =>
      obtain ⟨⟨admits, _⟩, earlier⟩ := orderly
      have known := inductionHypothesis earlier
      rw [phase]
      cases admits with
      | began time caller command idle =>
          refine ⟨[], past, ⟨⟨time, rfl⟩, ?_⟩, rfl⟩
          intro entry member
          contradiction
      | wrote time answer begun =>
          rw [begun] at known ⊢
          obtain ⟨course, before, opens, drained⟩ := known
          simp only [Phase.after, if_true]
          exact ⟨[], course, before, opens.after rfl, drained⟩
      | passed time command answer foreign =>
          rw [Phase.after_foreign foreign]
          exact known.after rfl
      | aside aside =>
          rw [Phase.after_aside _ aside]
          apply known.after
          cases event : entry.event <;> simp_all [Event.isAside, Event.isBound]
      | _ => trivial

/-- The exchange under way has begun in the journal, and its command has been written since. -/
theorem opens_of_written (orderly : IsOrderly start past)
    (written : phase past = .written caller command mark sent answer) :
    ∃ waiting writing before,
      Opens past caller command mark (waiting ++ ⟨sent, .wrote caller command answer⟩ :: writing)
        before ∧
      mark = (link start before).queue.next := by
  have known := underway orderly
  rw [written] at known
  exact known

/-- An exchange whose command is written goes on until it ends. -/
theorem Admits.written_or_ended {entry : Entry} (admits : Admits start past entry)
    (written : phase past = .written caller command mark sent answer) :
    phase (entry :: past) = .written caller command mark sent answer ∨
      ∃ outcome, entry.event = .ended caller command outcome := by
  rw [phase]
  cases admits with
  | began time other command idle => rw [written] at idle; contradiction
  | wrote time answer begun => rw [written] at begun; contradiction
  | passed time command answer foreign =>
      left
      rw [Phase.after_foreign foreign, written]
  | failed time begun kind => rw [written] at begun; contradiction
  | replied time same first =>
      rw [written] at same
      cases same
      exact Or.inr ⟨_, rfl⟩
  | wokenInVain time same empty woken =>
      rw [written] at same
      cases same
      exact Or.inr ⟨_, rfl⟩
  | timedOut time same empty asleep late =>
      rw [written] at same
      cases same
      exact Or.inr ⟨_, rfl⟩
  | aside aside =>
      left
      rw [Phase.after_aside _ aside, written]

/-- An exchange whose command is written is under way until the journal records its end. -/
theorem written_or_ended {between : List Entry} (orderly : IsOrderly start (between ++ past))
    (written : phase past = .written caller command mark sent answer) :
    phase (between ++ past) = .written caller command mark sent answer ∨
      ∃ entry ∈ between, ∃ outcome, entry.event = .ended caller command outcome := by
  induction between with
  | nil => exact Or.inl written
  | cons entry between inductionHypothesis =>
      rcases inductionHypothesis orderly.2 with goesOn | ⟨found, member, ended⟩
      · rcases orderly.1.1.written_or_ended goesOn with stays | ended
        · exact Or.inl stays
        · exact Or.inr ⟨entry, List.mem_cons_self, ended⟩
      · exact Or.inr ⟨found, List.mem_cons_of_mem entry member, ended⟩

/-- Lines are numbered as they come in. -/
theorem next_link (start : Link) (past : List Entry) :
    (link start past).queue.next = start.queue.next + (lines past).length := by
  induction past with
  | nil => rfl
  | cons entry past inductionHypothesis =>
      rw [link, Event.next_onLink, inductionHypothesis, lines, List.length_append]
      omega

namespace Opens

/-- The latest exchange is under way, whether its command has been written or not. -/
theorem phase_eq (opens : Opens past caller command mark course before) :
    phase past = .begun caller command mark ∨
      ∃ sent answer, phase past = .written caller command mark sent answer := by
  obtain ⟨⟨time, rfl⟩, alone⟩ := opens
  induction course with
  | nil => exact Or.inl rfl
  | cons entry course inductionHypothesis =>
      have rest := inductionHypothesis fun other member =>
        alone other (List.mem_cons_of_mem entry member)
      have own := alone entry List.mem_cons_self
      rw [List.cons_append, phase]
      rcases rest with begun | ⟨sent, answer, written⟩
      · rw [begun]
        cases event : entry.event with
        | wrote other command answer =>
            simp only [Phase.after, event]
            split
            · exact Or.inr ⟨entry.time, answer, rfl⟩
            · exact Or.inl rfl
        | began other command mark => rw [event] at own; contradiction
        | ended other command outcome => rw [event] at own; contradiction
        | _ => simp [Phase.after, event]
      · right
        rw [written]
        refine ⟨sent, answer, ?_⟩
        cases event : entry.event with
        | began other command mark => rw [event] at own; contradiction
        | ended other command outcome => rw [event] at own; contradiction
        | _ => simp [Phase.after, event]

/-- What is proved of the link at the beginning of an exchange, and kept in its course with the lines
that have come in. -/
theorem induction (holds : Link → List String → Prop)
    (opens : Opens past caller command mark course before)
    (initially : holds (link start before).arm [])
    (kept : ∀ entry ∈ course, ∀ link texts, holds link texts →
      holds (entry.event.onLink link) (texts ++ entry.event.lines)) :
    holds (link start past) (lines course) := by
  obtain ⟨time, rfl⟩ := opens.split
  clear opens
  induction course with
  | nil => exact initially
  | cons entry course inductionHypothesis =>
      apply kept entry List.mem_cons_self
      apply inductionHypothesis
      intro other member
      exact kept other (List.mem_cons_of_mem entry member)

/-- The queue holds nothing but lines that have come in since the exchange began. -/
theorem holds (opens : Opens past caller command mark course before)
    (drained : mark = (link start before).queue.next) :
    (link start past).queue.Holds mark (lines course) := by
  refine opens.induction (fun link texts => link.queue.Holds mark texts) ?_ ?_
  · rw [drained]
    exact ReplyQueue.holds_drain _
  · intro entry member link texts holds
    exact Event.holds_onLink (opens.alone entry member) holds

/-- The exchange has been woken when a line has come in. -/
theorem isWoken (opens : Opens past caller command mark course before) :
    (link start past).isWoken = !(lines course).isEmpty := by
  refine opens.induction (fun link texts => link.isWoken = !texts.isEmpty) rfl ?_
  intro entry member link texts woken
  rw [Event.isWoken_onLink link (opens.alone entry member), woken]
  cases texts <;> simp

/-- Without a reset the lines that have come in are still there. -/
theorem lines_ne_nil (opens : Opens past caller command mark course before)
    (kept : ∀ entry ∈ course, ∀ caller, entry.event ≠ .did caller .resetLink)
    (some : lines course ≠ []) : (link start past).queue.lines ≠ [] := by
  refine opens.induction (fun link texts => texts ≠ [] → link.queue.lines ≠ []) (by simp) ?_ some
  intro entry member link texts inductionHypothesis some
  apply Event.lines_onLink_ne_nil (opens.alone entry member) (kept entry member)
  by_cases old : texts = []
  · subst old
    exact Or.inr (by simpa using some)
  · exact Or.inl (inductionHypothesis old)

/-- The lines in the course of the latest exchange are the fresh ones. -/
theorem fresh_eq (opens : Opens past caller command mark course before) :
    fresh past = lines course := by
  obtain ⟨⟨time, rfl⟩, alone⟩ := opens
  induction course with
  | nil => rfl
  | cons entry course inductionHypothesis =>
      have rest := inductionHypothesis fun other member =>
        alone other (List.mem_cons_of_mem entry member)
      have own := alone entry List.mem_cons_self
      obtain ⟨time, event⟩ := entry
      rw [lines, ← rest]
      cases event <;> first | rfl | contradiction

end Opens

end Journal

namespace Bench.IsRecorded

variable {σ : Type} {start : Link} {bench : Bench σ} {caller mark sent : Nat} {command : String}
  {answer : List String}

/-- An exchange that waits has been woken when a line has come in since it began. -/
theorem isWoken_iff (recorded : bench.IsRecorded start)
    (written : Journal.phase bench.journal = .written caller command mark sent answer) :
    bench.station.link.isWoken = true ↔ Journal.fresh bench.journal ≠ [] := by
  obtain ⟨waiting, writing, before, opens, _⟩ := Journal.opens_of_written recorded.orderly written
  rw [recorded.isWoken, opens.isWoken, opens.fresh_eq]
  simp

/-- While an exchange waits, the queue holds nothing but lines that have come in since it began. -/
theorem text_mem_fresh (recorded : bench.IsRecorded start)
    (written : Journal.phase bench.journal = .written caller command mark sent answer)
    {line : QueuedLine} (member : line ∈ bench.station.link.queue.lines) :
    line.text ∈ Journal.fresh bench.journal := by
  obtain ⟨waiting, writing, before, opens, drained⟩ :=
    Journal.opens_of_written recorded.orderly written
  rw [recorded.queue] at member
  rw [opens.fresh_eq]
  exact List.mem_of_getElem? ((opens.holds drained).numbered line member).2

end Bench.IsRecorded

end DelayGenerator
