/-
This file shows that a reply queue is the tail of all that has been pushed: it holds the latest lines pushed since
it was last emptied, and every pushed line is given out once, waits, or has made room for later ones.
-/

import DelayGenerator.Proofs.Line.ReplyQueue
import Mathlib.Data.List.DropRight
import Mathlib.Data.List.Induction
import Mathlib.Data.List.Nodup
import Mathlib.Tactic.Tauto

namespace DelayGenerator

namespace QueueRecord

/-- The text that is pushed. -/
def pushed? (record : QueueRecord) : Option String :=
  match record.access with
  | .push text => some text
  | _ => none

/-- The lines that the queue gives out. -/
def returned (record : QueueRecord) : List QueuedLine :=
  match record.result with
  | .drained lines => lines
  | .taken (some (first, others)) => first :: others
  | _ => []

/-- Whether the queue is emptied: by a drain, or by taking a line that is there. -/
def empties (record : QueueRecord) : Bool :=
  match record.result with
  | .pushed _ => false
  | .drained _ => true
  | .taken lines => lines.isSome

end QueueRecord

namespace ReplyQueue

/-- All texts pushed. -/
def pushes (records : List QueueRecord) : List String := records.filterMap QueueRecord.pushed?

/-- All lines pushed, each under the number of those before it. -/
def pushLog (records : List QueueRecord) : List QueuedLine :=
  (pushes records).mapIdx fun number text => ⟨number, text⟩

/-- What has happened since the queue was last emptied. -/
def sinceEmptied (records : List QueueRecord) : List QueueRecord :=
  records.rtakeWhile fun record => !record.empties

/-- The latest lines pushed since the queue was last emptied, as many as there is room for. -/
def held (room : Nat) (records : List QueueRecord) : List QueuedLine :=
  (pushLog records).rtake (min room (pushes (sinceEmptied records)).length)

/-- All lines given out. -/
def allReturned (records : List QueueRecord) : List QueuedLine := records.flatMap QueueRecord.returned

/-- What is to be given in return for an access that comes after all this. -/
def expected (room : Nat) (past : List QueueRecord) : QueueAccess → QueueResult
  | .push _ => .pushed (pushes past).length
  | .drain => .drained (held room past)
  | .takeFirst => .taken ((held room past).head?.map fun first => (first, (held room past).tail))

section

variable {room : Nat} {records past rest : List QueueRecord} {record : QueueRecord} {text : String} {line : QueuedLine}

theorem pushes_append (records more : List QueueRecord) : pushes (records ++ more) = pushes records ++ pushes more :=
  List.filterMap_append

theorem pushLog_append_push (result : QueueResult) :
    pushLog (records ++ [⟨.push text, result⟩]) = pushLog records ++ [⟨(pushes records).length, text⟩] := by
  rw [pushLog, pushes_append]
  exact List.mapIdx_concat

theorem pushes_append_of_no_push (none : record.pushed? = none) : pushes (records ++ [record]) = pushes records := by
  simp [pushes, none]

theorem pushLog_append_of_no_push (none : record.pushed? = none) : pushLog (records ++ [record]) = pushLog records := by
  rw [pushLog, pushes_append_of_no_push none, pushLog]

theorem length_pushLog (records : List QueueRecord) : (pushLog records).length = (pushes records).length :=
  List.length_mapIdx

theorem sinceEmptied_append_empties (empties : record.empties = true) : sinceEmptied (records ++ [record]) = [] :=
  List.rtakeWhile_concat_neg _ _ _ (by simp [empties])

theorem sinceEmptied_append_of_not_empties (keeps : record.empties = false) :
    sinceEmptied (records ++ [record]) = sinceEmptied records ++ [record] :=
  List.rtakeWhile_concat_pos _ _ _ (by simp [keeps])

theorem length_pushes_sinceEmptied_le (records : List QueueRecord) :
    (pushes (sinceEmptied records)).length ≤ (pushes records).length := by
  have suffix : sinceEmptied records <:+ records := List.rtakeWhile_suffix _ _
  exact (suffix.sublist.filterMap _).length_le

/-- What is held ends with the line pushed last. -/
theorem held_append_push (positive : 0 < room) (result : QueueResult)
    (keeps : (⟨.push text, result⟩ : QueueRecord).empties = false) :
    held room (records ++ [⟨.push text, result⟩]) =
      (held room records).drop ((held room records).length + 1 - room) ++ [⟨(pushes records).length, text⟩] := by
  have within := length_pushes_sinceEmptied_le records
  have one : (pushes (sinceEmptied records ++ [⟨.push text, result⟩])).length =
      (pushes (sinceEmptied records)).length + 1 := by
    rw [pushes_append, List.length_append]
    rfl
  simp only [held, sinceEmptied_append_of_not_empties keeps, one, pushLog_append_push, List.rtake, List.length_append,
    List.length_singleton, List.length_drop, length_pushLog, List.drop_drop]
  rw [List.drop_append_of_le_length (by rw [length_pushLog]; omega)]
  congr 2
  omega

theorem held_append_empties (empties : record.empties = true) : held room (records ++ [record]) = [] := by
  rw [held, sinceEmptied_append_empties empties]
  simp [pushes]

theorem held_append_of_no_push (none : record.pushed? = none) (keeps : record.empties = false) :
    held room (records ++ [record]) = held room records := by
  rw [held, sinceEmptied_append_of_not_empties keeps, pushLog_append_of_no_push none, pushes_append_of_no_push none,
    held]

/-- A line is held if it is one of the latest, as far as there is room. -/
theorem mem_held :
    line ∈ held room records ↔ (pushes records)[line.number]? = some line.text ∧
      (pushes records).length ≤ line.number + min room (pushes (sinceEmptied records)).length := by
  have within := length_pushes_sinceEmptied_le records
  rw [held, List.rtake, length_pushLog, List.mem_drop_iff_getElem]
  constructor
  · rintro ⟨index, inside, rfl⟩
    simp only [pushLog, List.getElem_mapIdx]
    rw [length_pushLog] at inside
    exact ⟨List.getElem?_eq_getElem _, by omega⟩
  · rintro ⟨found, late⟩
    obtain ⟨inside, text⟩ := List.getElem?_eq_some_iff.mp found
    refine ⟨line.number - ((pushes records).length - min room (pushes (sinceEmptied records)).length), ?_, ?_⟩
    · rw [length_pushLog]
      omega
    · have position : (pushes records).length - min room (pushes (sinceEmptied records)).length +
          (line.number - ((pushes records).length - min room (pushes (sinceEmptied records)).length)) =
            line.number := by omega
      simp only [pushLog, List.getElem_mapIdx, position]
      rw [text]

end

/-- The queue is the tail of the log: it holds what it should, and goes on with the next number. -/
structure IsTail (room : Nat) (past : List QueueRecord) (queue : ReplyQueue) : Prop where
  sameRoom : queue.room = room
  next : queue.next = (pushes past).length
  lines : queue.lines = held room past

/-- Each record holds what is to be given in return after those before it. -/
def AreAnswered (room : Nat) (past records : List QueueRecord) : Prop :=
  ∀ before record after, records = before ++ record :: after →
    record.result = expected room (past ++ before) record.access

section

variable {room : Nat} {past : List QueueRecord} {queue : ReplyQueue}

theorem isTail_empty (capacity : Nat) : IsTail (max capacity 1) [] (empty capacity) where
  sameRoom := rfl
  next := rfl
  lines := by simp [empty, held, pushLog, pushes]

/-- What one access gives in return, and what it leaves. -/
theorem IsTail.serve (isTail : IsTail room past queue) (access : QueueAccess) :
    IsTail room (past ++ [⟨access, (queue.serve access).2⟩]) (queue.serve access).1 ∧
      (queue.serve access).2 = expected room past access := by
  cases access with
  | push text =>
      have positive : 0 < room := isTail.sameRoom ▸ queue.room_pos
      refine ⟨⟨isTail.sameRoom, ?_, ?_⟩, congrArg QueueResult.pushed isTail.next⟩
      · rw [pushes_append, List.length_append, ← isTail.next]
        rfl
      · change _ = held room (past ++ [⟨.push text, .pushed queue.next⟩])
        rw [held_append_push positive _ rfl, ← isTail.lines, ← isTail.next]
        change (if queue.room ≤ queue.lines.length then queue.lines.tail else queue.lines) ++ _ = _
        have within : queue.lines.length ≤ room := by
          rw [isTail.lines, held, List.rtake, List.length_drop]
          omega
        rw [isTail.sameRoom]
        split
        next full =>
          have one : queue.lines.length + 1 - room = 1 := by omega
          rw [one, List.drop_one]
        next notFull =>
          have none : queue.lines.length + 1 - room = 0 := by omega
          rw [none, List.drop_zero]
  | drain =>
      refine ⟨⟨isTail.sameRoom, ?_, (held_append_empties rfl).symm⟩, congrArg QueueResult.drained isTail.lines⟩
      rw [pushes_append_of_no_push rfl]
      exact isTail.next
  | takeFirst =>
      rw [ReplyQueue.serve, expected, ← isTail.lines]
      cases present : queue.lines with
      | nil =>
          rw [first?, present]
          refine ⟨⟨isTail.sameRoom, ?_, ?_⟩, rfl⟩
          · rw [pushes_append_of_no_push rfl]
            exact isTail.next
          · rw [held_append_of_no_push rfl rfl]
            exact isTail.lines
      | cons first others =>
          rw [first?, present]
          refine ⟨⟨isTail.sameRoom, ?_, (held_append_empties rfl).symm⟩, rfl⟩
          rw [pushes_append_of_no_push rfl]
          exact isTail.next

theorem serveAll_cons (queue : ReplyQueue) (access : QueueAccess) (rest : List QueueAccess) :
    queue.serveAll (access :: rest) =
      (((queue.serve access).1.serveAll rest).1,
        ⟨access, (queue.serve access).2⟩ :: ((queue.serve access).1.serveAll rest).2) := rfl

theorem IsTail.serveAll (isTail : IsTail room past queue) (accesses : List QueueAccess) :
    IsTail room (past ++ (queue.serveAll accesses).2) (queue.serveAll accesses).1 ∧
      AreAnswered room past (queue.serveAll accesses).2 := by
  induction accesses generalizing past queue with
  | nil =>
      refine ⟨by simpa [ReplyQueue.serveAll] using isTail, ?_⟩
      intro before record after parts
      cases before <;> cases parts
  | cons access rest inductionHypothesis =>
      obtain ⟨served, answered⟩ := isTail.serve access
      obtain ⟨last, others⟩ := inductionHypothesis served
      rw [serveAll_cons]
      refine ⟨by simpa using last, ?_⟩
      intro before record after parts
      cases before with
      | nil =>
          obtain ⟨rfl, _⟩ := List.cons.inj parts
          simpa using answered
      | cons first before =>
          have later := (List.cons.inj parts).2
          obtain rfl := (List.cons.inj parts).1
          simpa using others before record after later

theorem map_access_serveAll (queue : ReplyQueue) (accesses : List QueueAccess) :
    (queue.serveAll accesses).2.map QueueRecord.access = accesses := by
  induction accesses generalizing queue with
  | nil => rfl
  | cons access rest inductionHypothesis => exact congrArg (access :: ·) (inductionHypothesis _)

end

section

variable {room : Nat} {records past more later : List QueueRecord} {record : QueueRecord} {text : String}
  {result : QueueResult} {line : QueuedLine}

theorem AreAnswered.left (answered : AreAnswered room past (records ++ more)) : AreAnswered room past records := by
  intro before record after parts
  exact answered before record (after ++ more) (by rw [parts, List.append_assoc, List.cons_append])

theorem AreAnswered.right (answered : AreAnswered room past (records ++ more)) :
    AreAnswered room (past ++ records) more := by
  intro before record after parts
  rw [List.append_assoc]
  exact answered (records ++ before) record after (by rw [parts, List.append_assoc])

/-- What is given out is all that is held. -/
theorem returned_eq (answered : record.result = expected room past record.access) :
    record.returned = if record.empties then held room past else [] := by
  obtain ⟨access, result⟩ := record
  change result = expected room past access at answered
  subst answered
  cases access with
  | push text => rfl
  | drain => rfl
  | takeFirst => cases present : held room past <;> simp [QueueRecord.returned, QueueRecord.empties, expected, present]

theorem not_empties_push (answered : result = expected room past (.push text)) :
    (⟨.push text, result⟩ : QueueRecord).empties = false := by
  rw [answered]
  rfl

/-- Only what has been held when the queue was emptied is given out. -/
theorem AreAnswered.exists_held (answered : AreAnswered room past records) (member : line ∈ allReturned records) :
    ∃ before record after, records = before ++ record :: after ∧ record.empties = true ∧
      line ∈ held room (past ++ before) := by
  obtain ⟨record, inside, given⟩ := List.mem_flatMap.mp member
  obtain ⟨before, after, parts⟩ := List.append_of_mem inside
  rw [returned_eq (answered before record after parts)] at given
  split at given
  next empties => exact ⟨before, record, after, parts, empties, given⟩
  next => contradiction

/-- What is given out and what is held are lines of the log, in their order. -/
theorem AreAnswered.sublist (answered : AreAnswered room [] records) :
    (allReturned records ++ held room records).Sublist (pushLog records) := by
  induction records using List.reverseRecOn with
  | nil => simp [allReturned, held, pushLog, pushes]
  | append_singleton records record inductionHypothesis =>
      have before := inductionHypothesis answered.left
      have own : record.result = expected room records record.access := answered records record [] rfl
      have returned := returned_eq own
      rw [allReturned, List.flatMap_append, List.flatMap_singleton, returned]
      cases empties : record.empties with
      | true =>
          rw [held_append_empties empties, if_pos rfl, List.append_nil]
          have log : pushLog (records ++ [record]) = pushLog records := by
            apply pushLog_append_of_no_push
            obtain ⟨access, result⟩ := record
            cases access with
            | push text => rw [not_empties_push own] at empties; contradiction
            | drain => rfl
            | takeFirst => rfl
          rw [log]
          exact before
      | false =>
          rw [if_neg Bool.false_ne_true, List.append_nil]
          obtain ⟨access, result⟩ := record
          cases access with
          | push text =>
              rcases Nat.eq_zero_or_pos room with rfl | positive
              · rw [held, Nat.zero_min, List.rtake_zero, List.append_nil, pushLog_append_push]
                exact ((List.sublist_append_left _ _).trans before).trans (List.sublist_append_left _ _)
              · rw [held_append_push positive _ empties, pushLog_append_push, ← List.append_assoc]
                apply List.Sublist.append_right
                exact ((List.Sublist.refl _).append (List.drop_sublist _ _)).trans before
          | drain =>
              rw [held_append_of_no_push rfl empties, pushLog_append_of_no_push rfl]
              exact before
          | takeFirst =>
              rw [held_append_of_no_push rfl empties, pushLog_append_of_no_push rfl]
              exact before

theorem nodup_pushLog (records : List QueueRecord) : (pushLog records).Nodup := by
  apply List.pairwise_iff_getElem.mpr
  intro first second firstInside secondInside earlier same
  simp only [pushLog, List.getElem_mapIdx, QueuedLine.mk.injEq] at same
  omega

/-- What has happened before the queue was emptied makes no difference. -/
theorem sinceEmptied_append_cons (empties : record.empties = true) (records more : List QueueRecord) :
    sinceEmptied (records ++ record :: more) = sinceEmptied more := by
  induction more using List.reverseRecOn with
  | nil =>
      rw [sinceEmptied_append_empties empties]
      rfl
  | append_singleton more last inductionHypothesis =>
      rw [← List.cons_append, ← List.append_assoc]
      cases ends : last.empties with
      | true => rw [sinceEmptied_append_empties ends, sinceEmptied_append_empties ends]
      | false =>
          rw [sinceEmptied_append_of_not_empties ends, sinceEmptied_append_of_not_empties ends, inductionHypothesis]

theorem sinceEmptied_append (keeps : ∀ record ∈ more, record.empties = false) (records : List QueueRecord) :
    sinceEmptied (records ++ more) = sinceEmptied records ++ more := by
  induction more using List.reverseRecOn with
  | nil => simp
  | append_singleton more last inductionHypothesis =>
      rw [← List.append_assoc, sinceEmptied_append_of_not_empties (keeps last (by simp)), inductionHypothesis
        fun record member => keeps record (List.mem_append_left _ member), List.append_assoc]

/-- A line is not held before it is pushed. -/
theorem not_mem_held_of_le (early : (pushes records).length ≤ line.number) : line ∉ held room records := by
  intro member
  have found := (mem_held.mp member).1
  rw [List.getElem?_eq_none early] at found
  contradiction

/-- Until the queue is emptied a pushed line is held as long as there is room. -/
theorem mem_held_pushed (keeps : ∀ record ∈ (⟨.push text, result⟩ : QueueRecord) :: later, record.empties = false) :
    (⟨(pushes past).length, text⟩ : QueuedLine) ∈ held room (past ++ ⟨.push text, result⟩ :: later) ↔
      (pushes later).length < room := by
  have pushed : pushes (⟨.push text, result⟩ :: later) = text :: pushes later := rfl
  rw [mem_held, sinceEmptied_append keeps, pushes_append, pushes_append, pushed]
  simp only [List.length_append, List.length_cons, List.getElem?_append_right (Nat.le_refl _), Nat.sub_self,
    List.getElem?_cons_zero, true_and]
  omega

theorem length_lt_pushes (past : List QueueRecord) (text : String) (result : QueueResult) (later : List QueueRecord) :
    (pushes past).length < (pushes (past ++ ⟨.push text, result⟩ :: later)).length := by
  rw [pushes_append, List.length_append]
  exact Nat.lt_add_of_pos_right (Nat.succ_pos _)

/-- Once the queue has been emptied no earlier line is held. -/
theorem not_mem_held_of_emptied (empties : record.empties = true) (early : line.number < (pushes records).length) :
    line ∉ held room (records ++ record :: more) := by
  intro member
  have late := (mem_held.mp member).2
  have within := length_pushes_sinceEmptied_le more
  have some : (pushes more).length ≤ (pushes (record :: more)).length :=
    ((List.sublist_cons_self record more).filterMap _).length_le
  rw [sinceEmptied_append_cons empties, pushes_append, List.length_append] at late
  omega

end

/-- What has happened until the queue was next emptied. -/
def untilEmptied (later : List QueueRecord) : List QueueRecord := later.takeWhile fun record => !record.empties

/-- What becomes of a line, given what has happened since it was pushed: it is given out once, it waits, or it has
made room for as many later lines as there is room for. -/
inductive HasFate (room : Nat) (later : List QueueRecord) (returned waiting : List QueuedLine) (line : QueuedLine) :
    Prop where
  | returned (few : (pushes (untilEmptied later)).length < room) (emptied : ∃ record ∈ later, record.empties = true)
      (once : returned.count line = 1) (gone : line ∉ waiting)
  | waiting (few : (pushes (untilEmptied later)).length < room) (keeps : ∀ record ∈ later, record.empties = false)
      (kept : line ∉ returned) (once : waiting.count line = 1)
  | evicted (many : room ≤ (pushes (untilEmptied later)).length) (lost : line ∉ returned) (gone : line ∉ waiting)

section

variable {room : Nat} {past records later : List QueueRecord} {text : String} {result : QueueResult}
  {line : QueuedLine}

theorem not_empties_of_mem_untilEmptied {record : QueueRecord} (member : record ∈ untilEmptied later) :
    record.empties = false := by
  have passed := List.mem_takeWhile_imp member
  simpa using passed

theorem untilEmptied_eq_self (keeps : ∀ record ∈ later, record.empties = false) : untilEmptied later = later :=
  List.takeWhile_eq_self_iff.mpr fun record member => by simp [keeps record member]

/-- The record with which the queue is emptied comes behind those until then. -/
theorem exists_emptied (emptied : ∃ record ∈ later, record.empties = true) :
    ∃ record rest, later = untilEmptied later ++ record :: rest ∧ record.empties = true := by
  have parts : untilEmptied later ++ later.dropWhile (fun record => !record.empties) = later :=
    List.takeWhile_append_dropWhile
  have stops := List.head?_dropWhile_not (fun record : QueueRecord => !record.empties) later
  cases behind : later.dropWhile fun record => !record.empties with
  | nil =>
      obtain ⟨record, member, empties⟩ := emptied
      have passed := List.dropWhile_eq_nil_iff.mp behind record member
      rw [empties] at passed
      contradiction
  | cons record rest =>
      rw [behind] at parts stops
      exact ⟨record, rest, parts.symm, by simpa using stops⟩

/-- A line is not given out before it is pushed. -/
theorem AreAnswered.not_mem_of_le (answered : AreAnswered room [] records)
    (early : (pushes records).length ≤ line.number) : line ∉ allReturned records := by
  intro member
  obtain ⟨before, record, after, rfl, _, held⟩ := answered.exists_held member
  refine not_mem_held_of_le ?_ held
  rw [pushes_append, List.length_append] at early
  rw [List.nil_append]
  omega

theorem AreAnswered.allReturned_eq_nil (answered : AreAnswered room past records)
    (keeps : ∀ record ∈ records, record.empties = false) : allReturned records = [] := by
  apply List.eq_nil_iff_forall_not_mem.mpr
  intro line member
  obtain ⟨before, record, after, rfl, empties, _⟩ := answered.exists_held member
  rw [keeps record (List.mem_append_right _ List.mem_cons_self)] at empties
  contradiction

theorem allReturned_append (records more : List QueueRecord) :
    allReturned (records ++ more) = allReturned records ++ allReturned more :=
  List.flatMap_append

theorem allReturned_cons (record : QueueRecord) (rest : List QueueRecord) :
    allReturned (record :: rest) = record.returned ++ allReturned rest := rfl

theorem not_mem_allReturned_pushed (answered : AreAnswered room [] (past ++ ⟨.push text, result⟩ :: later))
    (keeps : ∀ record ∈ (⟨.push text, result⟩ : QueueRecord) :: later, record.empties = false) :
    (⟨(pushes past).length, text⟩ : QueuedLine) ∉ allReturned (past ++ ⟨.push text, result⟩ :: later) := by
  rw [allReturned_append, answered.right.allReturned_eq_nil keeps, List.append_nil]
  exact answered.left.not_mem_of_le (Nat.le_refl _)

/-- A pushed line is given out when the queue is next emptied, if there has been room for it until then. -/
theorem mem_allReturned_emptied {record : QueueRecord} {rest : List QueueRecord}
    (answered : AreAnswered room [] ((past ++ ⟨.push text, result⟩ :: later) ++ record :: rest))
    (keeps : ∀ record ∈ (⟨.push text, result⟩ : QueueRecord) :: later, record.empties = false)
    (empties : record.empties = true) :
    (⟨(pushes past).length, text⟩ : QueuedLine) ∈
        allReturned ((past ++ ⟨.push text, result⟩ :: later) ++ record :: rest) ↔ (pushes later).length < room := by
  have notBefore := not_mem_allReturned_pushed answered.left keeps
  have notBehind : (⟨(pushes past).length, text⟩ : QueuedLine) ∉ allReturned rest := by
    intro member
    rw [List.append_cons] at answered
    obtain ⟨before, _, _, _, _, held⟩ := answered.right.exists_held member
    rw [List.nil_append, List.append_assoc, List.singleton_append] at held
    exact not_mem_held_of_emptied empties (length_lt_pushes past text result later) held
  have returned := returned_eq (answered _ record rest rfl)
  rw [if_pos empties, List.nil_append] at returned
  rw [allReturned_append, List.mem_append, allReturned_cons, List.mem_append, returned, mem_held_pushed keeps]
  tauto

theorem hasFate (answered : AreAnswered room [] (past ++ ⟨.push text, result⟩ :: later)) :
    HasFate room later (allReturned (past ++ ⟨.push text, result⟩ :: later))
      (held room (past ++ ⟨.push text, result⟩ :: later)) ⟨(pushes past).length, text⟩ := by
  have own := not_empties_push (answered past _ later rfl)
  have once := answered.sublist.nodup (nodup_pushLog _)
  by_cases emptied : ∃ record ∈ later, record.empties = true
  · obtain ⟨record, rest, parts, empties⟩ := exists_emptied emptied
    have keeps : ∀ record ∈ (⟨.push text, result⟩ : QueueRecord) :: untilEmptied later, record.empties = false :=
      List.forall_mem_cons.mpr ⟨own, fun _ => not_empties_of_mem_untilEmptied⟩
    -- The records fall into those before the queue is emptied, the one that empties it, and the others.
    have whole : past ++ (⟨.push text, result⟩ : QueueRecord) :: later =
        (past ++ ⟨.push text, result⟩ :: untilEmptied later) ++ record :: rest := by
      conv_lhs => rw [parts]
      simp
    rw [whole] at answered once ⊢
    have gone : (⟨(pushes past).length, text⟩ : QueuedLine) ∉
        held room ((past ++ ⟨.push text, result⟩ :: untilEmptied later) ++ record :: rest) :=
      not_mem_held_of_emptied empties (length_lt_pushes past text result (untilEmptied later))
    have given := mem_allReturned_emptied answered keeps empties
    by_cases few : (pushes (untilEmptied later)).length < room
    · exact .returned few emptied (List.count_eq_one_of_mem (List.nodup_append.mp once).1 (given.mpr few)) gone
    · exact .evicted (Nat.le_of_not_lt few) (fun member => few (given.mp member)) gone
  · have others : ∀ record ∈ later, record.empties = false := by
      intro record member
      by_contra empties
      exact emptied ⟨record, member, by simpa using empties⟩
    have keeps : ∀ record ∈ (⟨.push text, result⟩ : QueueRecord) :: later, record.empties = false :=
      List.forall_mem_cons.mpr ⟨own, others⟩
    have kept := not_mem_allReturned_pushed answered keeps
    have all := untilEmptied_eq_self others
    by_cases few : (pushes later).length < room
    · have waits : (⟨(pushes past).length, text⟩ : QueuedLine) ∈ held room (past ++ ⟨.push text, result⟩ :: later) :=
        (mem_held_pushed keeps).mpr few
      exact .waiting (by rwa [all]) others kept (List.count_eq_one_of_mem (List.nodup_append.mp once).2.1 waits)
    · exact .evicted (by rw [all]; omega) kept fun member => few ((mem_held_pushed keeps).mp member)

end

/-- A queue with this capacity, of which all this has been asked, is the tail of the log of what has been pushed. -/
structure KeepsTail (capacity : Nat) (accesses : List QueueAccess) (records : List QueueRecord) (queue : ReplyQueue) :
    Prop where
  asked : records.map QueueRecord.access = accesses
  answered : AreAnswered (max capacity 1) [] records
  waiting : queue.lines = held (max capacity 1) records
  emptied : ∀ past record, records = past ++ [record] → record.empties = true → queue.lines = []
  inOrder : (allReturned records ++ queue.lines).Sublist (pushLog records)
  fates : ∀ past text result later, records = past ++ ⟨.push text, result⟩ :: later →
    HasFate (max capacity 1) later (allReturned records) queue.lines ⟨(pushes past).length, text⟩

/-- Whatever is asked of a queue that is empty at first, it is the tail of the log of what has been pushed. -/
theorem keepsTail (capacity : Nat) (accesses : List QueueAccess) :
    KeepsTail capacity accesses ((empty capacity).serveAll accesses).2 ((empty capacity).serveAll accesses).1 := by
  obtain ⟨isTail, answered⟩ := (isTail_empty capacity).serveAll accesses
  rw [List.nil_append] at isTail
  refine ⟨map_access_serveAll _ accesses, answered, isTail.lines, ?_, ?_, ?_⟩
  · intro past record parts empties
    rw [isTail.lines, parts, held_append_empties empties]
  · rw [isTail.lines]
    exact answered.sublist
  · intro past text result later parts
    rw [isTail.lines]
    rw [parts] at answered ⊢
    exact hasFate answered

example : ((empty 2).serveAll [.push "a", .push "b", .push "c", .takeFirst, .push "d"]).1.lines = [⟨3, "d"⟩] := by
  decide

end ReplyQueue

end DelayGenerator
