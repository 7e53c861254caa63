/-
This file shows when replies depend on the chunks in which answers come in. An exchange ends with the first
line that is complete. If more of the answer is still to come then, the rest of it comes in during the next
exchange and is taken for the reply to another command.
-/

import DelayGenerator.Operation.Answer
import DelayGenerator.Proofs.Bench.Attribution
import DelayGenerator.Proofs.Operation.Unsolicited
import Mathlib.Algebra.Group.Action.Defs
import Mathlib.Algebra.Order.BigOperators.Group.List
import Mathlib.Algebra.Order.Ring.Nat

namespace DelayGenerator

namespace FarEnd

variable {σ : Type}

/-- Every command is answered with printable lines that are not too long: with one at least, and with no more
than there is room for. -/
def AnswersWithin (limit room : Nat) (farEnd : FarEnd σ) : Prop :=
  ∀ state command, (farEnd.respond state command).2 ≠ [] ∧ (farEnd.respond state command).2.length ≤ room ∧
    ∀ line ∈ (farEnd.respond state command).2, Text.IsPrintable line ∧ line.length ≤ limit

/-- The first lines of the answers to commands that come one after another. -/
def firstLines (farEnd : FarEnd σ) (commands : List String) : List String :=
  (farEnd.answers commands).map fun lines => lines.headD ""

end FarEnd

namespace Delivery

/-- If there is room for one line only, or whole answers fit into a chunk, no line is complete before the last
chunk of an answer has come in. -/
theorem comesWhole_of_fits {limit room : Nat} {size : Option Nat} {lines : List String}
    (fits : ∀ width ∈ size, room ≤ 1 ∨ room * (limit + 2) ≤ width) (some : lines ≠ [])
    (few : lines.length ≤ room) (plain : ∀ line ∈ lines, Text.IsPrintable line ∧ line.length ≤ limit) :
    ComesWhole (.empty limit) size lines := by
  cases size with
  | none => exact isWhole_none limit lines
  | some width =>
      rcases fits width rfl with single | wide
      · obtain ⟨line, rfl⟩ : ∃ line, lines = [line] :=
          List.length_eq_one_iff.mp (Nat.le_antisymm (few.trans single) (List.length_pos_iff.mpr some))
        exact comesWhole_line _ (plain line List.mem_cons_self).1 _
      · have length := length_payload fun line member => (plain line member).1
        have bound : (lines.map fun line => line.length + 2).sum ≤ lines.length * (limit + 2) := by
          have each := List.sum_le_card_nsmul (lines.map fun line => line.length + 2) (limit + 2) (by
            intro number member
            obtain ⟨line, inside, rfl⟩ := List.mem_map.mp member
            exact Nat.add_le_add_right (plain line inside).2 2)
          rwa [List.length_map, smul_eq_mul] at each
        have whole : (payload lines).length ≤ width := by
          rw [length]
          exact (bound.trans (Nat.mul_le_mul_right _ few)).trans wide
        exact comesWhole_of_single (cut_of_length_le (payload_ne_nil some) whole)

section

variable {limit room size : Nat} {full : String}

theorem feed_payload_replicate (room : Nat) (printable : Text.IsPrintable full)
    (length : full.length = limit) :
    (Framer.empty limit).feed (payload (List.replicate room full)) =
      (.empty limit, List.replicate room full) := by
  apply feed_payload_of_printable
  intro line member
  rw [List.eq_of_mem_replicate member]
  exact ⟨printable, Nat.le_of_eq length⟩

theorem printable_of_mem_replicate (room : Nat) (printable : Text.IsPrintable full) :
    ∀ line ∈ List.replicate room full, Text.IsPrintable line := by
  intro line member
  rw [List.eq_of_mem_replicate member]
  exact printable

theorem length_payload_replicate (room : Nat) (printable : Text.IsPrintable full)
    (length : full.length = limit) :
    (payload (List.replicate room full)).length = room * (limit + 2) := by
  rw [length_payload (printable_of_mem_replicate room printable), List.map_replicate, List.sum_replicate,
    length, smul_eq_mul]

/-- The first newline of the answer comes after a whole line. -/
theorem length_lt_of_not_mem (printable : Text.IsPrintable full) (length : full.length = limit)
    (some : 0 < room) {before after : List UInt8}
    (parts : payload (List.replicate room full) = before ++ after) (none : Framer.newline ∉ before) :
    before.length < limit + 2 := by
  have utf8 := Framer.length_utf8_of_printable printable
  rw [String.length_toList, length] at utf8
  obtain ⟨others, rfl⟩ := Nat.exists_eq_add_of_lt some
  have bytes : payload (List.replicate (0 + others + 1) full) =
      (Text.utf8 full ++ [0x0D]) ++ (Framer.newline :: payload (List.replicate others full)) := by
    rw [Nat.zero_add, List.replicate_succ]
    simp [payload, Framer.newline]
  refine Classical.byContradiction fun long => none ?_
  have here : before[limit + 1]? = .some Framer.newline := by
    have inside : limit + 1 < before.length := by omega
    have own : (Text.utf8 full ++ [0x0D]).length = limit + 1 := by
      rw [List.length_append, Text.utf8, utf8]
      rfl
    have same : (before ++ after)[limit + 1]? = before[limit + 1]? := List.getElem?_append_left inside
    rw [← same, ← parts, bytes, List.getElem?_append_right (Nat.le_of_eq own), own, Nat.sub_self]
    rfl
  exact List.mem_of_getElem? here

/-- If an answer may be longer than a chunk, there is one of which some lines are complete before the last
chunk has come in. -/
theorem exists_behind (printable : Text.IsPrintable full) (length : full.length = limit) (several : 2 ≤ room)
    (narrow : size < room * (limit + 2)) :
    ∃ before chunk behind,
      chunksOf (some size) (payload (List.replicate room full)) = before ++ chunk :: behind ∧
        ((Framer.empty limit).feed before.flatten).2 = [] ∧
        (((Framer.empty limit).feed before.flatten).1.feed chunk).2 ≠ [] ∧ behind ≠ [] := by
  have flat := flattenChunksOf (some size) (payload (List.replicate room full))
  have found := feed_payload_replicate room printable length
  rw [← flat] at found
  obtain ⟨before, chunk, behind, parts, silent, complete⟩ := @Framer.exists_first_lines (.empty limit)
    (chunksOf (some size) (payload (List.replicate room full))) (by
      rw [found]
      simpa using Nat.ne_of_gt (Nat.lt_of_lt_of_le Nat.two_pos several))
  refine ⟨before, chunk, behind, parts, silent, complete, ?_⟩
  rintro rfl
  -- The last chunk would complete all lines, so that the first ones hold no newline and are too short.
  rw [parts, List.flatten_append, List.flatten_singleton] at flat
  rw [parts, List.flatten_append, List.flatten_singleton, Framer.feedAppend, silent, List.nil_append] at found
  have newlines := count_payload (printable_of_mem_replicate room printable)
  rw [← flat, List.count_append, List.length_replicate] at newlines
  have lines := Framer.length_lines_le_count ((Framer.empty limit).feed before.flatten).1 chunk
  rw [congrArg Prod.snd found, List.length_replicate] at lines
  have short := length_lt_of_not_mem printable length (by omega) flat.symm
    (List.count_eq_zero.mp (by omega))
  have total := length_payload_replicate room printable length
  rw [← flat, List.length_append] at total
  have last : chunk.length ≤ max size 1 := by
    have inside : chunk ∈ chunksOf (some size) (payload (List.replicate room full)) := by
      rw [parts]
      exact List.mem_append_right before List.mem_cons_self
    exact length_le_of_mem_chunksOf inside
  have twice : 2 * (limit + 2) ≤ room * (limit + 2) := Nat.mul_le_mul_right _ several
  cases before with
  | nil =>
      rw [List.flatten_nil, List.length_nil] at total
      omega
  | cons first others =>
      have filled : first.length = max size 1 := length_of_cut_eq parts (by simp)
      rw [List.flatten_cons, List.length_append] at short total
      omega

/-- What is complete before the last chunk are some lines of the answer, and the others come behind. -/
theorem exists_lines_behind (printable : Text.IsPrintable full) (length : full.length = limit)
    (several : 2 ≤ room) (narrow : size < room * (limit + 2)) :
    ∃ before chunk behind,
      chunksOf (some size) (payload (List.replicate room full)) = before ++ chunk :: behind ∧
        ((Framer.empty limit).feed before.flatten).2 = [] ∧
        (((Framer.empty limit).feed before.flatten).1.feed chunk).2 ≠ [] ∧
        ((((Framer.empty limit).feed before.flatten).1.feed chunk).1.feed behind.flatten).2 ≠ [] ∧
        (((Framer.empty limit).feed before.flatten).1.feed chunk).2 ++
          ((((Framer.empty limit).feed before.flatten).1.feed chunk).1.feed behind.flatten).2 =
            List.replicate room full := by
  obtain ⟨before, chunk, behind, parts, silent, complete, more⟩ :=
    exists_behind printable length several narrow
  have flat := flattenChunksOf (some size) (payload (List.replicate room full))
  rw [parts, List.flatten_append, List.flatten_cons] at flat
  have found := congrArg Prod.snd (feed_payload_replicate room printable length)
  rw [← flat, Framer.feedAppend, Framer.feedAppend, silent, List.nil_append] at found
  refine ⟨before, chunk, behind, parts, silent, complete, fun none => ?_, found⟩
  -- A newline is still to come, and every line has taken one.
  have coming := List.count_pos_iff.mpr
    (newline_mem_rest (parts.trans (List.append_cons before chunk behind)) more)
  have newlines := count_payload (printable_of_mem_replicate room printable)
  rw [← flat, List.count_append, List.count_append, List.length_replicate] at newlines
  have lines := Framer.length_lines_le_count ((Framer.empty limit).feed before.flatten).1 chunk
  rw [none, List.append_nil] at found
  rw [found, List.length_replicate] at lines
  omega

end

end Delivery

namespace Routine

theorem isCyclic_sendEach (items : List (Nat × String)) {stage : CycleStage} (free : stage ≠ .inside) :
    (sendEach items).IsCyclic True True (· ≠ .inside) stage := by
  induction items with
  | nil => exact free
  | cons item others inductionHypothesis =>
      refine ⟨Or.inr trivial, fun outcome => ?_⟩
      exact inductionHypothesis.andThen fun outcomes stage free => free

end Routine

theorem Operation.isCyclic_sendAll (commands : List String) {stage : CycleStage} (free : stage ≠ .inside) :
    (sendAll commands).IsCyclic True True (· ≠ .inside) stage := by
  induction commands with
  | nil => exact free
  | cons command others inductionHypothesis =>
      refine ⟨Or.inr trivial, fun outcome => ?_⟩
      exact inductionHypothesis.andThen fun replies stage free => free

namespace Bench

variable {σ : Type} {expected : Frame σ} {limit : Nat}

/-- Whatever a single caller sends, and however long it pauses before each command, it gets the first line of
the answer to each command in turn. -/
structure TakesFirstLines (bench : Bench σ) : Prop where
  sends : ∀ items : List (Nat × String), bench.Gives (.sendEach items)
    ((bench.farEnd.firstLines (items.map fun item => Text.stripLineEnd item.2)).map .ok)
  submits : ∀ commands : List String, bench.Gives (Operation.sendAll commands)
    (bench.farEnd.firstLines (commands.map Text.stripLineEnd))

/-- If answers come as a whole, an exchange ends with the first line of its own answer, and nothing is left of
the answer. -/
theorem secures_first (prompt : expected.IsPrompt)
    (within : expected.farEnd.AnswersWithin limit expected.room)
    (fits : ∀ size ∈ expected.pace.chunkSize, expected.room ≤ 1 ∨ expected.room * (limit + 2) ≤ size)
    (command : String) :
    Secures (IsIdle expected (.empty limit))
      (IsIdle (expected.taken (Text.stripLineEnd command)) (.empty limit)) (.send command)
      (.ok ((expected.answer (Text.stripLineEnd command)).headD "")) := by
  have own : expected.answer (Text.stripLineEnd command) ≠ [] ∧
      (expected.answer (Text.stripLineEnd command)).length ≤ expected.room ∧
      ∀ line ∈ expected.answer (Text.stripLineEnd command), Text.IsPrintable line ∧ line.length ≤ limit :=
    within expected.farEnd.state (Text.stripLineEnd command)
  obtain ⟨some, few, plain⟩ := own
  refine .ask prompt (Delivery.comesWhole_of_fits fits some few plain) ?_
  rw [Delivery.feed_payload_of_printable plain]
  obtain ⟨line, others, lines⟩ := List.exists_cons_of_ne_nil some
  rw [lines] at few ⊢
  rw [Frame.reply_cons few]
  exact .done _ _

theorem secures_sendEach (items : List (Nat × String)) (prompt : expected.IsPrompt)
    (within : expected.farEnd.AnswersWithin limit expected.room)
    (fits : ∀ size ∈ expected.pace.chunkSize, expected.room ≤ 1 ∨ expected.room * (limit + 2) ≤ size) :
    ∃ later : Frame σ, Secures (IsIdle expected (.empty limit)) (IsIdle later (.empty limit))
      (.sendEach items)
      ((expected.farEnd.firstLines (items.map fun item => Text.stripLineEnd item.2)).map .ok) := by
  induction items generalizing expected with
  | nil => exact ⟨expected, .done _ _⟩
  | cons item others inductionHypothesis =>
      obtain ⟨later, rest⟩ := @inductionHypothesis (expected.taken (Text.stripLineEnd item.2))
        (prompt.taken _) within fits
      have first := secures_first prompt within fits item.2
      refine ⟨later, Secures.pause (isLasting_isIdle _ _) (first.andThen ?_) item.1⟩
      exact rest.andThen (.done _ _)

theorem secures_sendAll (commands : List String) (prompt : expected.IsPrompt)
    (within : expected.farEnd.AnswersWithin limit expected.room)
    (fits : ∀ size ∈ expected.pace.chunkSize, expected.room ≤ 1 ∨ expected.room * (limit + 2) ≤ size) :
    ∃ later : Frame σ, Secures (IsIdle expected (.empty limit)) (IsIdle later (.empty limit))
      (Operation.sendAll commands) (expected.farEnd.firstLines (commands.map Text.stripLineEnd)) := by
  induction commands generalizing expected with
  | nil => exact ⟨expected, .done _ _⟩
  | cons command others inductionHypothesis =>
      obtain ⟨later, rest⟩ := @inductionHypothesis (expected.taken (Text.stripLineEnd command))
        (prompt.taken _) within fits
      have first := secures_first prompt within fits command
      refine ⟨later, first.andThen ?_⟩
      exact rest.andThen (.done _ _)

end Bench

namespace Operation

/-- How a far end answers that answers one command with an empty line, and all others alike. -/
def flooding (brief : String) (lines : List String) (command : String) : List String :=
  if command = brief then [""] else lines

end Operation

/-- A far end that answers one command with an empty line, and all others alike. -/
def FarEnd.flooding (brief : String) (lines : List String) : FarEnd Unit :=
  ⟨(), fun _ command => ((), Operation.flooding brief lines command)⟩

theorem FarEnd.answersWithin_flooding {limit room : Nat} {full : String} (brief : String)
    (printable : Text.IsPrintable full) (short : full.length ≤ limit) (some : 0 < room) :
    (FarEnd.flooding brief (List.replicate room full)).AnswersWithin limit room := by
  intro state command
  change Operation.flooding brief _ command ≠ [] ∧ (Operation.flooding brief _ command).length ≤ room ∧
    ∀ line ∈ Operation.flooding brief _ command, _
  unfold Operation.flooding
  split
  · refine ⟨List.cons_ne_nil _ _, some, fun line member => ?_⟩
    rw [List.mem_singleton.mp member]
    exact ⟨by decide, Nat.zero_le _⟩
  · refine ⟨?_, Nat.le_of_eq List.length_replicate, fun line member => ?_⟩
    · simpa using Nat.ne_of_gt some
    · rw [List.eq_of_mem_replicate member]
      exact ⟨printable, short⟩

theorem Text.exists_printable (length : Nat) :
    ∃ text : String, Text.IsPrintable text ∧ text.length = length := by
  refine ⟨String.ofList (List.replicate length 'x'), fun character member => ?_, by simp⟩
  rw [String.toList_ofList] at member
  rw [List.eq_of_mem_replicate member]
  decide

namespace Bench

variable {σ : Type} {bench middle after : Bench σ} {pace : Pace} {bound clock limit room size : Nat}
  {full brief command : String}

theorem completes_sendEach_cons {outcome : Except Fault String} {items : List (Nat × String)}
    {outcomes : List (Except Fault String)} (first : Completes (.send command) outcome bench middle)
    (others : Completes (.sendEach items) outcomes middle after) :
    Completes (.sendEach ((0, command) :: items)) (outcome :: outcomes) bench after := by
  have rest : Completes ((Routine.sendEach items).andThen fun outcomes => .done (outcome :: outcomes))
      (outcome :: outcomes) middle after := others.andThen (.done _ after)
  have asks : Completes (.ask command fun outcome =>
      (Routine.sendEach items).andThen fun outcomes => .done (outcome :: outcomes)) (outcome :: outcomes) bench
        after := first.ask rest
  exact asks.of_run fun _ _ => rfl

/-- If an answer may be longer than a chunk, the rest of it is taken for the reply to the next command. -/
theorem completes_flooded (chunked : pace.chunkSize = some size) (positive : 0 < bound)
    (inTime : pace.latency ≤ bound) (printable : Text.IsPrintable full) (length : full.length = limit)
    (several : 2 ≤ room) (narrow : size < room * (limit + 2)) (spoken : Text.stripLineEnd command ≠ brief)
    (free : bench.IsFree (fun _ => Operation.flooding brief (List.replicate room full)) pace bound clock []
      (.empty limit)) (next : String) :
    ∃ after : Bench σ, Completes (.sendEach [(0, command), (0, next)]) [.ok full, .ok full] bench after := by
  obtain ⟨before, chunk, behind, parts, silent, complete, rest, lines⟩ :=
    Delivery.exists_lines_behind printable length several narrow
  have answered : coming pace clock
      (Operation.flooding brief (List.replicate room full) (Text.stripLineEnd command)) =
        [⟨clock + pace.latency, before ++ chunk :: behind⟩] := by
    have some : (List.replicate room full).isEmpty = false := by
      simpa using Nat.ne_of_gt (Nat.lt_of_lt_of_le Nat.two_pos several)
    rw [Operation.flooding, if_neg spoken, coming, some, chunked, parts]
    rfl
  have all {line : String} (member : line ∈ List.replicate room full) : line = full :=
    List.eq_of_mem_replicate member
  rw [← lines] at all
  obtain ⟨middle, first, free⟩ := free.takesLine positive command before answered (by omega)
    (fun _ delivery member => absurd member List.not_mem_nil) silent complete
    fun line member => all (List.mem_append_left _ member)
  -- What is left of the answer is due already, so it comes in before the answer to the next command.
  obtain ⟨earlier, late, others, left, none, some⟩ := Framer.exists_first_lines rest
  have more : behind.isEmpty = false := by rw [left]; simp
  rw [Delivery.behind, more, left] at free
  obtain ⟨after, second, _⟩ := free.takesLine positive next earlier rfl
    ((Nat.le_max_right _ _).trans (Nat.le_add_right _ _))
    (fun early => absurd early (Nat.not_lt_of_le (Nat.le_max_right _ _))) none some fun line member => by
      apply all
      rw [left, List.flatten_append, List.flatten_cons, Framer.feedAppend, Framer.feedAppend]
      exact List.mem_append_right _ (List.mem_append_right _ (List.mem_append_left _ member))
  exact ⟨after, completes_sendEach_cons first (completes_sendEach_cons second (.done [] after))⟩

end Bench

/-- If answers come as a whole, a single caller gets the first line of the answer to each of its commands. -/
theorem Station.IsListening.takesFirstLines {σ : Type} {station : Station} {farEnd : FarEnd σ} {pace : Pace}
    (listening : station.IsListening) (inTime : pace.latency < station.link.replyBound)
    (within : farEnd.AnswersWithin station.link.framer.limit station.link.queue.room)
    (fits : ∀ size ∈ pace.chunkSize, station.link.queue.room ≤ 1 ∨
      station.link.queue.room * (station.link.framer.limit + 2) ≤ size) :
    (Bench.facing station farEnd pace).TakesFirstLines := by
  have prompt := listening.isPrompt farEnd inTime
  have before : CycleStage.before ≠ .inside := by decide
  constructor
  · intro items
    obtain ⟨later, secures⟩ := Bench.secures_sendEach items prompt within fits
    exact listening.gives secures (Bench.isLasting_isIdle _ _) (Routine.isCyclic_sendEach items before)
  · intro commands
    obtain ⟨later, secures⟩ := Bench.secures_sendAll commands prompt within fits
    exact listening.gives secures (Bench.isLasting_isIdle _ _) (Operation.isCyclic_sendAll commands before)

namespace Station.IsConnected

variable {station : Station}

theorem isListening (connected : station.IsConnected) : station.IsListening :=
  ⟨connected.journal, connected.isOpen, connected.succeeds, connected.stays,
    ⟨0, connected.atOnce, Nat.zero_le _⟩, connected.steady, connected.framer⟩

/-- If longest lines fill the queue and the chunks are too small for them, one of them is taken for the reply
to a command that is answered with an empty line. -/
theorem not_takesFirstLines_flooding (connected : station.IsConnected) {pace : Pace} {size : Nat}
    {full : String} (inTime : pace.latency < station.link.replyBound) (chunked : pace.chunkSize = some size)
    (several : 2 ≤ station.link.queue.room)
    (narrow : size < station.link.queue.room * (station.link.framer.limit + 2))
    (printable : Text.IsPrintable full) (length : full.length = station.link.framer.limit)
    (some : full ≠ "") :
    ¬ (Bench.facing station (.flooding "B" (List.replicate station.link.queue.room full))
      pace).TakesFirstLines := by
  intro takes
  have ready : (Bench.facing station (.flooding "B" (List.replicate station.link.queue.room full))
      pace).IsReady (fun _ => Operation.flooding "B" (List.replicate station.link.queue.room full)) pace
      station.link.replyBound station.clock (.empty station.link.framer.limit) :=
    connected.isReady pace fun _ _ => rfl
  obtain ⟨after, completes⟩ := Bench.completes_flooded chunked connected.waits (Nat.le_of_lt inTime) printable
    length several narrow (by decide : Text.stripLineEnd "A" ≠ "B") ready.toIsFree "B"
  have same := (takes.sends [(0, "A"), (0, "B")]).eq_of_reaches completes.reaches
  have second : Operation.flooding "B" (List.replicate station.link.queue.room full)
      (Text.stripLineEnd "B") = [""] := if_pos (by decide)
  have reply := congrArg (fun outcomes => outcomes[1]?) same
  change Option.some (Except.ok full) = Option.some (Except.ok ((Operation.flooding "B"
    (List.replicate station.link.queue.room full) (Text.stripLineEnd "B")).headD "")) at reply
  rw [second] at reply
  cases reply
  exact some rfl

/-- Whatever answers the far end gives that fit into the queue, a single caller gets the first line of the
answer to each of its commands exactly if answers come in one piece, or in chunks that are large enough for
any of them, or if there is room for one line only. -/
theorem takesFirstLines_iff (connected : station.IsConnected) (pace : Pace)
    (positive : 0 < station.link.framer.limit) (inTime : pace.latency < station.link.replyBound) :
    (∀ (σ : Type) (farEnd : FarEnd σ),
        farEnd.AnswersWithin station.link.framer.limit station.link.queue.room →
        (Bench.facing station farEnd pace).TakesFirstLines) ↔
      ∀ size ∈ pace.chunkSize, station.link.queue.room ≤ 1 ∨
        station.link.queue.room * (station.link.framer.limit + 2) ≤ size := by
  constructor
  · intro takes size chunked
    refine Classical.byContradiction fun otherwise => ?_
    simp only [not_or, Nat.not_le] at otherwise
    obtain ⟨several, narrow⟩ := otherwise
    obtain ⟨full, printable, length⟩ := Text.exists_printable station.link.framer.limit
    have some : full ≠ "" := by
      rintro rfl
      exact absurd length (Nat.ne_of_lt positive)
    have within := FarEnd.answersWithin_flooding "B" printable (Nat.le_of_eq length)
      (Nat.zero_lt_of_lt several)
    exact connected.not_takesFirstLines_flooding inTime chunked several narrow printable length some
      (takes Unit _ within)
  · intro fits σ farEnd within
    exact connected.isListening.takesFirstLines inTime within fits

/-- Under the default settings replies are first lines if answers come in one piece, but not if they come in
chunks of three bytes. -/
theorem takesFirstLines_defaults :
    let station : Station :=
      { Station.idle Settings.defaults { Port.ready with isOpen := true } with
        connection := ⟨true, "", Settings.defaults.serial.baudRate⟩ }
    let takes (size : Option Nat) : Prop := ∀ (σ : Type) (farEnd : FarEnd σ),
      farEnd.AnswersWithin station.link.framer.limit station.link.queue.room →
        (Bench.facing station farEnd ⟨199, size⟩).TakesFirstLines
    station.IsConnected ∧ 0 < station.link.framer.limit ∧ 199 < station.link.replyBound ∧ takes none ∧
      ¬ takes (some 3) := by
  intro station takes
  have connected : station.IsConnected :=
    ⟨rfl, rfl, rfl, rfl, rfl, rfl, Ticker.isSteady_start _ _, rfl, by decide⟩
  have positive : 0 < station.link.framer.limit := by decide
  have inTime : 199 < station.link.replyBound := by decide
  refine ⟨connected, positive, inTime, ?_, ?_⟩
  · apply (connected.takesFirstLines_iff ⟨199, none⟩ positive inTime).mpr
    intro size member
    contradiction
  · intro holds
    have condition := (connected.takesFirstLines_iff ⟨199, some 3⟩ positive inTime).mp holds 3 rfl
    revert condition
    decide

end Station.IsConnected

end DelayGenerator
