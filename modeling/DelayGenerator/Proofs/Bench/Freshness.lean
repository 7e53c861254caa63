/-
This file shows that no reply is stale and none is given twice: a reply is a line that came in during
the very exchange that it ends, and no other command is written meanwhile.
-/

import DelayGenerator.Proofs.Bench.Course
import DelayGenerator.Proofs.Bench.Schedule
import DelayGenerator.Proofs.Bench.Transcript

namespace DelayGenerator

/-- The number of the line that ends an exchange as its reply. -/
def Entry.returned? (entry : Entry) : Option Nat :=
  match entry.event with
  | .ended _ _ (.ok line) => some line.number
  | _ => none

theorem Entry.returned?_eq_some {entry : Entry} {number : Nat} :
    entry.returned? = some number ↔
      ∃ time caller command line,
        entry = ⟨time, .ended caller command (.ok line)⟩ ∧ line.number = number := by
  constructor
  · intro returned
    obtain ⟨time, event⟩ := entry
    unfold returned? at returned
    split at returned
    · rename_i caller command line reply
      dsimp only at reply
      exact ⟨time, caller, command, line, by rw [reply], Option.some.inj returned⟩
    · contradiction
  · rintro ⟨_, caller, command, line, rfl, rfl⟩
    rfl

/-- The far end takes a command. -/
def Event.isWrite : Event → Bool
  | .wrote _ _ _ => true
  | _ => false

namespace Journal

/-- Every reply is a line completed after its exchange began and before it ended. The number of the
line is not below the mark of the exchange, and the mark counts the lines that came before. -/
def RepliesAreFresh (start : Link) (journal : List Entry) : Prop :=
  ∀ later past time caller command line,
    journal = later ++ ⟨time, .ended caller command (.ok line)⟩ :: past →
    ∃ mark course before,
      Opens past caller command mark course before ∧
      mark = start.queue.next + (lines before).length ∧ mark ≤ line.number ∧
      (lines course)[line.number - mark]? = some line.text

/-- The numbers of the replies, from the first to the latest, strictly increase. -/
def RepliesIncrease (journal : List Entry) : Prop :=
  (journal.filterMap Entry.returned?).Pairwise fun later earlier => earlier < later

/-- Between two commands the exchange of the first one ends. -/
def WritesAreApart (journal : List Entry) : Prop :=
  ∀ later between past time time' caller caller' command command' answer answer',
    journal = later ++ ⟨time', .wrote caller' command' answer'⟩ ::
      (between ++ ⟨time, .wrote caller command answer⟩ :: past) →
    ∃ entry ∈ between, ∃ outcome, entry.event = .ended caller command outcome

/-- A command is written only in the exchange under way. -/
def InTurn (past : List Entry) (entry : Entry) : Prop :=
  ∀ caller command answer, entry.event = .wrote caller command answer →
    ∃ mark, phase past = .begun caller command mark

theorem inTurn_of_silent {entry : Entry} (past : List Entry)
    (silent : entry.event.isWrite = false) : InTurn past entry := by
  intro caller command answer same
  rw [same] at silent
  contradiction

variable {start : Link} {past : List Entry} {caller mark sent : Nat} {command : String}
  {answer : List String}

/-- Only a line that came in during an exchange ends it as its reply. -/
theorem opens_of_reply {time : Nat} {line : QueuedLine}
    (orderly : IsOrderly start (⟨time, .ended caller command (.ok line)⟩ :: past)) :
    ∃ mark course before,
      Opens past caller command mark course before ∧
      mark = start.queue.next + (lines before).length ∧ mark ≤ line.number ∧
      (lines course)[line.number - mark]? = some line.text := by
  obtain ⟨⟨admits, _⟩, earlier⟩ := orderly
  cases admits with
  | @replied _ mark _ _ _ _ _ _ written first =>
      obtain ⟨waiting, writing, before, opens, drained⟩ := opens_of_written earlier written
      have holds := opens.holds drained
      obtain ⟨late, found⟩ := holds.numbered line (ReplyQueue.mem_of_first? first)
      exact ⟨mark, _, before, opens, drained.trans (next_link start before), late, found⟩
  | aside aside => contradiction

theorem repliesAreFresh (orderly : IsOrderly start past) : RepliesAreFresh start past := by
  intro later earlier time caller command line split
  rw [split] at orderly
  have here := Every.middle orderly
  exact opens_of_reply here

/-- No exchange ends in the course of another one. -/
theorem Opens.returned_eq {mark : Nat} {course before : List Entry}
    (opens : Opens past caller command mark course before) :
    past.filterMap Entry.returned? = before.filterMap Entry.returned? := by
  obtain ⟨⟨time, rfl⟩, alone⟩ := opens
  have none : course.filterMap Entry.returned? = [] := by
    apply List.filterMap_eq_nil_iff.mpr
    intro entry member
    have unbound := alone entry member
    apply Option.eq_none_iff_forall_ne_some.mpr
    intro number returned
    obtain ⟨time, caller, command, line, rfl, _⟩ := Entry.returned?_eq_some.mp returned
    contradiction
  rw [List.filterMap_append, none]
  rfl

/-- A line that has been returned is one of the lines that have come in. -/
theorem returned_lt (orderly : IsOrderly start past) {number : Nat}
    (member : number ∈ past.filterMap Entry.returned?) :
    number < start.queue.next + (lines past).length := by
  obtain ⟨entry, within, returned⟩ := List.mem_filterMap.mp member
  obtain ⟨later, earlier, rfl⟩ := List.append_of_mem within
  obtain ⟨time, caller, command, line, rfl, rfl⟩ := Entry.returned?_eq_some.mp returned
  obtain ⟨mark, course, before, ⟨⟨began, rfl⟩, _⟩, counted, late, found⟩ :=
    opens_of_reply (Every.middle orderly)
  have inside := (List.getElem?_eq_some_iff.mp found).1
  simp only [lines_append, lines, List.length_append]
  omega

theorem repliesIncrease (orderly : IsOrderly start past) : RepliesIncrease past := by
  induction past with
  | nil => exact List.Pairwise.nil
  | cons entry past inductionHypothesis =>
      have increase : RepliesIncrease past := inductionHypothesis orderly.2
      unfold RepliesIncrease
      rw [List.filterMap_cons]
      split
      · exact increase
      · rename_i number returned
        apply List.pairwise_cons.mpr
        refine ⟨?_, increase⟩
        intro earlier member
        obtain ⟨time, caller, command, line, rfl, rfl⟩ := Entry.returned?_eq_some.mp returned
        obtain ⟨mark, course, before, opens, counted, late, _⟩ := opens_of_reply orderly
        -- The earlier reply came before this exchange began, and its line before the mark.
        rw [opens.returned_eq] at member
        obtain ⟨⟨began, rfl⟩, _⟩ := opens
        have orderlyBefore := (Every.middle orderly.2).2
        have below := returned_lt orderlyBefore member
        omega

theorem writesAreApart (orderly : IsOrderly start past) (inTurn : Every InTurn past) :
    WritesAreApart past := by
  intro later between earlier time time' caller caller' command command' answer answer' split
  rw [split] at orderly inTurn
  obtain ⟨mark, begun⟩ := (Every.middle inTurn).1 caller' command' answer' rfl
  have orderlyBetween := (Every.middle orderly).2
  have earlierTurn := (Every.middle (Every.middle inTurn).2).1
  obtain ⟨mark, begunEarlier⟩ := earlierTurn caller command answer rfl
  have written : phase (⟨time, .wrote caller command answer⟩ :: earlier) =
      .written caller command mark time answer := by
    rw [phase, begunEarlier]
    simp [Phase.after]
  rcases written_or_ended orderlyBetween written with goesOn | ended
  · rw [goesOn] at begun
    contradiction
  · exact ended

end Journal

namespace Bench

variable {σ : Type} {bench : Bench σ}

theorem inTurn_perform (inTurn : Journal.Every Journal.InTurn bench.journal) (caller : Nat)
    (act : Act) :
    Journal.Every Journal.InTurn (bench.onStation (Station.perform caller act)).journal := by
  cases act with
  | receive bytes =>
      exact ⟨Journal.inTurn_of_silent _ rfl, Journal.inTurn_of_silent _ rfl, inTurn⟩
  | _ => exact ⟨Journal.inTurn_of_silent _ rfl, inTurn⟩

theorem inTurn_writeFailed (inTurn : Journal.Every Journal.InTurn bench.journal) (caller : Nat)
    (command : String) (fault : Fault) :
    Journal.Every Journal.InTurn (bench.writeFailed caller command fault).journal := by
  cases fault <;> exact ⟨Journal.inTurn_of_silent _ rfl, inTurn⟩

theorem inTurn_deliver (inTurn : Journal.Every Journal.InTurn bench.journal) (index : Nat) :
    Journal.Every Journal.InTurn (bench.deliver index).journal := by
  unfold deliver
  split
  · exact ⟨Journal.inTurn_of_silent _ rfl, inTurn⟩
  · exact ⟨Journal.inTurn_of_silent _ rfl, inTurn⟩
  · exact inTurn
  · exact inTurn

end Bench

namespace Traffic

variable {α σ : Type}

/-- Callers that transmit no bytes of their own write in their turn only. -/
theorem inTurn_beat {start : Link} {refusals cycles : Prop} {allowed : Act → Prop}
    {routines : List (Routine α)} {before after : Traffic α σ}
    (only : ∀ routine ∈ routines, routine.Only allowed cycles) (regular : before.IsRegular start)
    (told : before.IsTold refusals routines) (beat : before.Beat after)
    (inTurn : Journal.Every Journal.InTurn before.journal) :
    Journal.Every Journal.InTurn after.journal := by
  have silent {entry : Entry} (silent : entry.event.isWrite = false) :
      Journal.Every Journal.InTurn (entry :: before.journal) :=
    ⟨Journal.inTurn_of_silent _ silent, inTurn⟩
  cases beat with
  | @advance index caller next bench here advance =>
      obtain ⟨rest, stands, before_it⟩ := told.only only here
      cases advance with
      | act action follow => exact Bench.inTurn_perform inTurn index action
      | start first course => exact silent rfl
      | @failAtOnce command next fault first course =>
          have started : Journal.Every Journal.InTurn
              (before.bench.started index command).journal := silent rfl
          exact Bench.inTurn_writeFailed started index _ _
      | write due =>
          obtain ⟨mark, begun⟩ := regular.stands index _ here
          refine ⟨?_, inTurn⟩
          intro caller command answer same
          cases same
          exact ⟨mark, begun⟩
      | failLate due => exact Bench.inTurn_writeFailed inTurn index _ _
      | takeLine due first => exact silent rfl
      | wakeInVain empty woken => exact silent rfl
      | timeOut empty asleep due => exact silent rfl
      | endTransmission due =>
          obtain ⟨bound, rfl⟩ := stands
          contradiction
      | claim first => exact silent rfl
      | release follow => exact silent rfl
      | _ => exact inTurn
  | deliver index possible => exact Bench.inTurn_deliver inTurn index
  | tick possible => exact silent rfl
  | elapse possible => exact inTurn

/-- After every run of callers that transmit no bytes of their own, every command has been written in
the exchange under way. -/
theorem Reaches.inTurn {allowed : Act → Prop} {cycles : Prop} {first : Bench σ} (fresh : first.IsFresh)
    {routines : List (Routine α)} (only : ∀ routine ∈ routines, routine.Only allowed cycles)
    {last : Traffic α σ} (reached : (Traffic.start first routines).Reaches last) :
    Journal.Every Journal.InTurn last.journal := by
  have known := reached.invariant
    (fun traffic => traffic.IsRegular first.station.link ∧ traffic.IsTold True routines ∧
      Journal.Every Journal.InTurn traffic.journal) ?_ ?_
  · exact known.2.2
  · refine ⟨.of_fresh fresh routines, .of_fresh True fresh routines, ?_⟩
    have empty : (Traffic.start first routines).journal = [] := fresh.journal
    rw [empty]
    trivial
  · rintro before after beat ⟨regular, told, inTurn⟩
    exact ⟨regular.beat beat, told.beat beat fun _ => trivial,
      inTurn_beat only regular told beat inTurn⟩

/-- No stale and no doubled reply. Callers that transmit no bytes of their own are told what the journal
records; each reply in it came in during the exchange that it ends, no line is a reply twice, and no
other command is written until an exchange has ended. -/
theorem Reaches.replies {first : Bench σ} (fresh : first.IsFresh) {routines : List (Routine α)}
    (only : ∀ routine ∈ routines, routine.Only (fun _ => True) True) {last : Traffic α σ}
    (reached : (Traffic.start first routines).Reaches last) :
    last.IsTold True routines ∧
      Journal.RepliesAreFresh first.station.link last.journal ∧
      Journal.RepliesIncrease last.journal ∧
      Journal.WritesAreApart last.journal := by
  have orderly := (reached.regular fresh).recorded.orderly
  refine ⟨reached.told fresh, ?_, ?_, ?_⟩
  · exact Journal.repliesAreFresh orderly
  · exact Journal.repliesIncrease orderly
  · exact Journal.writesAreApart orderly (reached.inTurn fresh only)

/-- Of two callers the second still waits for its turn when the first one has its reply. -/
theorem Reaches.replies_two :
    let farEnd : FarEnd Unit := ⟨(), fun _ _ => ((), ["ok"])⟩
    let first := Bench.opened { Settings.defaults with tickPeriod := 0 } farEnd ⟨5, some 2⟩
    let routines := [Routine.send "A", Routine.send "B"]
    let last := (Traffic.start first routines).play
      [.turn 0, .turn 1, .elapse, .deliver 0, .deliver 0, .turn 0]
    (last.IsTold True routines ∧
      Journal.RepliesAreFresh first.station.link last.journal ∧
      Journal.RepliesIncrease last.journal ∧ Journal.WritesAreApart last.journal) ∧
      last.journal.filterMap Entry.returned? = [0] :=
  ⟨Reaches.replies (Bench.isFresh_opened _ _ _)
      (by simp [Routine.send, Routine.Only]) (reaches_play _ _),
    by rfl⟩

end Traffic

end DelayGenerator
