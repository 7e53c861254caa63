/-
This file shows which lines a reply queue holds, and under which numbers.
-/

import DelayGenerator.Line.ReplyQueue

namespace DelayGenerator.ReplyQueue

/-- The queue holds some of the texts pushed since it gave out the number `mark`, each under its own
number. -/
structure Holds (queue : ReplyQueue) (mark : Nat) (texts : List String) : Prop where
  next : queue.next = mark + texts.length
  numbered : ∀ line ∈ queue.lines, mark ≤ line.number ∧ texts[line.number - mark]? = some line.text

/-- An emptied queue holds none of the texts to come. -/
theorem holds_drain (queue : ReplyQueue) : queue.drain.Holds queue.next [] where
  next := rfl
  numbered := by
    intro line member
    simp [drain] at member

/-- A queue that is emptied goes on with its numbers. -/
theorem Holds.drain {queue : ReplyQueue} {mark : Nat} {texts : List String}
    (holds : queue.Holds mark texts) : queue.drain.Holds mark texts where
  next := holds.next
  numbered := by
    intro line member
    simp [ReplyQueue.drain] at member

/-- A line that a push keeps was there before, unless it is the new one. -/
theorem mem_lines_push {queue : ReplyQueue} {text : String} {line : QueuedLine}
    (member : line ∈ (queue.push text).lines) :
    line ∈ queue.lines ∨ line = ⟨queue.next, text⟩ := by
  simp only [push, List.mem_append, List.mem_singleton] at member
  rcases member with kept | new
  · left
    split at kept
    · exact List.mem_of_mem_tail kept
    · exact kept
  · exact Or.inr new

/-- A push adds its text under the next number. -/
theorem Holds.push {queue : ReplyQueue} {mark : Nat} {texts : List String}
    (holds : queue.Holds mark texts) (text : String) :
    (queue.push text).Holds mark (texts ++ [text]) where
  next := by
    have before := holds.next
    simp only [ReplyQueue.push, List.length_append, List.length_singleton]
    omega
  numbered := by
    intro line member
    rcases mem_lines_push member with old | rfl
    · obtain ⟨late, found⟩ := holds.numbered line old
      have inside := (List.getElem?_eq_some_iff.mp found).1
      exact ⟨late, by rw [List.getElem?_append_left inside, found]⟩
    · have before := holds.next
      have position : queue.next - mark = texts.length := by omega
      exact ⟨by simp only; omega, by simp [position]⟩

theorem Holds.pushAll {queue : ReplyQueue} {mark : Nat} {texts : List String}
    (holds : queue.Holds mark texts) (added : List String) :
    (queue.pushAll added).Holds mark (texts ++ added) := by
  induction added generalizing queue texts with
  | nil => simpa [ReplyQueue.pushAll] using holds
  | cons text rest inductionHypothesis =>
      have later := inductionHypothesis (holds.push text)
      simpa [ReplyQueue.pushAll] using later

theorem next_pushAll (queue : ReplyQueue) (texts : List String) :
    (queue.pushAll texts).next = queue.next + texts.length := by
  induction texts generalizing queue with
  | nil => rfl
  | cons text rest inductionHypothesis =>
      have later := inductionHypothesis (queue.push text)
      rw [nextPush] at later
      rw [List.length_cons]
      change ((queue.push text).pushAll rest).next = _
      omega

/-- A push leaves a line in the queue, whatever it drops. -/
theorem lines_pushAll_ne_nil {queue : ReplyQueue} {texts : List String}
    (some : queue.lines ≠ [] ∨ texts ≠ []) : (queue.pushAll texts).lines ≠ [] := by
  induction texts generalizing queue with
  | nil => simpa [pushAll] using some
  | cons text rest inductionHypothesis =>
      have pushed : (queue.push text).lines ≠ [] := by simp [push]
      exact inductionHypothesis (Or.inl pushed)

/-- What is in the queue was there before or has been pushed. -/
theorem mem_lines_pushAll {queue : ReplyQueue} {texts : List String} {line : QueuedLine}
    (member : line ∈ (queue.pushAll texts).lines) : line ∈ queue.lines ∨ line.text ∈ texts := by
  induction texts generalizing queue with
  | nil => exact Or.inl member
  | cons text rest inductionHypothesis =>
      rcases inductionHypothesis member with before | later
      · rcases mem_lines_push before with old | rfl
        · exact Or.inl old
        · exact Or.inr List.mem_cons_self
      · exact Or.inr (List.mem_cons_of_mem text later)

/-- The first line is one of the lines. -/
theorem mem_of_first? {queue : ReplyQueue} {line : QueuedLine} {others : List QueuedLine}
    (first : queue.first? = some (line, others)) : line ∈ queue.lines := by
  unfold first? at first
  split at first
  · contradiction
  · rename_i present
    cases first
    rw [present]
    exact List.mem_cons_self

theorem first?_eq_none_iff {queue : ReplyQueue} : queue.first? = none ↔ queue.lines = [] := by
  unfold first?
  split <;> simp_all

theorem room_pos (queue : ReplyQueue) : 0 < queue.room := Nat.lt_of_lt_of_le Nat.one_pos (Nat.le_max_right _ _)

theorem room_pushAll (queue : ReplyQueue) (texts : List String) : (queue.pushAll texts).room = queue.room := by
  induction texts generalizing queue with
  | nil => rfl
  | cons text rest inductionHypothesis => exact inductionHypothesis (queue.push text)

/-- A queue that is not overfull keeps the latest lines. -/
theorem texts_pushAll {queue : ReplyQueue} (within : queue.lines.length ≤ queue.room) (texts : List String) :
    (queue.pushAll texts).lines.map QueuedLine.text =
      (queue.lines.map QueuedLine.text ++ texts).drop (queue.lines.length + texts.length - queue.room) := by
  induction texts generalizing queue with
  | nil =>
      have none : queue.lines.length + ([] : List String).length - queue.room = 0 := by
        rw [List.length_nil]
        omega
      rw [none, List.append_nil]
      rfl
  | cons text rest inductionHypothesis =>
      have pushed : (queue.push text).lines.map QueuedLine.text =
          (queue.lines.map QueuedLine.text ++ [text]).drop (queue.lines.length + 1 - queue.room) := by
        by_cases full : queue.room ≤ queue.lines.length
        · have one : queue.lines.length + 1 - queue.room = 1 := by omega
          have some : 1 ≤ (queue.lines.map QueuedLine.text).length := by
            have positive := queue.room_pos
            rw [List.length_map]
            omega
          rw [one, List.drop_append_of_le_length some]
          simp [push, full]
        · have none : queue.lines.length + 1 - queue.room = 0 := by omega
          rw [none]
          simp [push, full]
      have length := congrArg List.length pushed
      simp only [List.length_map, List.length_drop, List.length_append, List.length_singleton] at length
      have short : queue.lines.length + 1 - queue.room ≤
          (queue.lines.map QueuedLine.text ++ [text]).length := by
        simp only [List.length_append, List.length_map, List.length_singleton]
        omega
      have later := @inductionHypothesis (queue.push text) (by
        change _ ≤ queue.room
        omega)
      change ((queue.push text).pushAll rest).lines.map QueuedLine.text = _
      rw [later, pushed, ← List.drop_append_of_le_length short, List.drop_drop, List.append_assoc,
        List.singleton_append]
      congr 1
      change queue.lines.length + 1 - queue.room +
        ((queue.push text).lines.length + rest.length - queue.room) = _
      rw [List.length_cons]
      omega

end DelayGenerator.ReplyQueue
